import Mathlib

/-!
# Grouping a list by an ordered key

An ordered map from keys to vectors, kept as a key-sorted list, filled by
`entry(key).or_default().push(value)`.  On a list whose keys never decrease the
groups, written one after another, are the list itself, and appending one more
value changes the last group only.
-/

set_option autoImplicit false

namespace EthgasReth.Lib

section Groups

variable {κ α : Type} [LinearOrder κ]

def pushEntry (key : κ) (value : α) : List (κ × List α) → List (κ × List α)
  | [] => [(key, [value])]
  | (k, values) :: rest =>
      if key < k then (key, [value]) :: (k, values) :: rest
      else if key = k then (k, values ++ [value]) :: rest
      else (k, values) :: pushEntry key value rest

def groupEntries (keyOf : α → κ) (xs : List α) : List (κ × List α) :=
  xs.foldl (fun groups x => pushEntry (keyOf x) x groups) []

def ungroup (groups : List (κ × List α)) : List α :=
  groups.flatMap Prod.snd

omit [LinearOrder κ] in
theorem ungroup_cons (group : κ × List α) (groups : List (κ × List α)) :
    ungroup (group :: groups) = group.2 ++ ungroup groups :=
  List.flatMap_cons

omit [LinearOrder κ] in
@[simp] theorem ungroup_append (xs ys : List (κ × List α)) :
    ungroup (xs ++ ys) = ungroup xs ++ ungroup ys := by
  simp [ungroup]

omit [LinearOrder κ] in
@[simp] theorem ungroup_singleton (key : κ) (values : List α) :
    ungroup [(key, values)] = values := by
  simp [ungroup]

theorem groupEntries_append (keyOf : α → κ) (xs : List α) (x : α) :
    groupEntries keyOf (xs ++ [x]) = pushEntry (keyOf x) x (groupEntries keyOf xs) := by
  simp [groupEntries]

/-- Every group is non-empty and holds values of its own key. -/
def Keyed (keyOf : α → κ) (groups : List (κ × List α)) : Prop :=
  ∀ group ∈ groups, group.2 ≠ [] ∧ ∀ value ∈ group.2, keyOf value = group.1

omit [LinearOrder κ] in
theorem Keyed.ofKeys {keyOf : α → κ} {groups : List (κ × List α)} (keyed : Keyed keyOf groups) :
    ∀ group ∈ groups, ∀ value ∈ group.2, keyOf value = group.1 :=
  fun group member => (keyed group member).2

theorem pushEntry_keyed (keyOf : α → κ) (x : α) (groups : List (κ × List α))
    (keyed : Keyed keyOf groups) : Keyed keyOf (pushEntry (keyOf x) x groups) := by
  induction groups with
  | nil =>
      intro group member
      simp only [pushEntry, List.mem_singleton] at member
      subst member
      simp
  | cons head rest ih =>
      obtain ⟨k, values⟩ := head
      have headKeyed := keyed (k, values) (List.mem_cons_self ..)
      have restKeyed : Keyed keyOf rest :=
        fun group member => keyed group (List.mem_cons_of_mem _ member)
      intro group member
      simp only [pushEntry] at member
      split at member
      · rcases List.mem_cons.mp member with rfl | member
        · simp
        · exact keyed group member
      · split at member
        · rename_i same
          rcases List.mem_cons.mp member with rfl | member
          · refine ⟨by simp, ?_⟩
            intro value inside
            rcases List.mem_append.mp inside with inside | inside
            · exact headKeyed.2 value inside
            · rw [List.mem_singleton.mp inside]
              exact same
          · exact restKeyed group member
        · rcases List.mem_cons.mp member with rfl | member
          · exact headKeyed
          · exact ih restKeyed group member

theorem groupEntries_keyed (keyOf : α → κ) (xs : List α) :
    Keyed keyOf (groupEntries keyOf xs) := by
  induction xs using List.reverseRecOn with
  | nil => intro group member; simp [groupEntries] at member
  | append_singleton xs x ih =>
      rw [groupEntries_append]
      exact pushEntry_keyed keyOf x _ ih

theorem pushEntry_above (key : κ) (value : α) (groups : List (κ × List α))
    (below : ∀ group ∈ groups, group.1 < key) :
    pushEntry key value groups = groups ++ [(key, [value])] := by
  induction groups with
  | nil => rfl
  | cons head rest ih =>
      obtain ⟨k, values⟩ := head
      have headBelow : k < key := below (k, values) (List.mem_cons_self ..)
      simp only [pushEntry, if_neg (not_lt_of_gt headBelow), if_neg (ne_of_gt headBelow),
        List.cons_append]
      rw [ih fun group member => below group (List.mem_cons_of_mem _ member)]

theorem pushEntry_last (key : κ) (value : α) (groups : List (κ × List α)) (values : List α)
    (below : ∀ group ∈ groups, group.1 < key) :
    pushEntry key value (groups ++ [(key, values)]) =
      groups ++ [(key, values ++ [value])] := by
  induction groups with
  | nil => simp [pushEntry]
  | cons head rest ih =>
      obtain ⟨k, others⟩ := head
      have headBelow : k < key := below (k, others) (List.mem_cons_self ..)
      simp only [List.cons_append, pushEntry, if_neg (not_lt_of_gt headBelow),
        if_neg (ne_of_gt headBelow)]
      rw [ih fun group member => below group (List.mem_cons_of_mem _ member)]

theorem pushEntry_mem (key : κ) (value : α) (groups : List (κ × List α)) (group : κ × List α)
    (member : group ∈ pushEntry key value groups) :
    group.1 = key ∨ ∃ other ∈ groups, other.1 = group.1 := by
  induction groups with
  | nil =>
      simp only [pushEntry, List.mem_singleton] at member
      exact Or.inl (by rw [member])
  | cons head rest ih =>
      obtain ⟨k, values⟩ := head
      simp only [pushEntry] at member
      split at member
      · rcases List.mem_cons.mp member with rfl | member
        · exact Or.inl rfl
        · exact Or.inr ⟨group, member, rfl⟩
      · split at member
        · rcases List.mem_cons.mp member with rfl | member
          · exact Or.inr ⟨(k, values), List.mem_cons_self .., rfl⟩
          · exact Or.inr ⟨group, List.mem_cons_of_mem _ member, rfl⟩
        · rcases List.mem_cons.mp member with rfl | member
          · exact Or.inr ⟨(k, values), List.mem_cons_self .., rfl⟩
          · rcases ih member with same | ⟨other, inside, same⟩
            · exact Or.inl same
            · exact Or.inr ⟨other, List.mem_cons_of_mem _ inside, same⟩

theorem pushEntry_sorted (key : κ) (value : α) (groups : List (κ × List α))
    (sorted : groups.Pairwise fun a b => a.1 < b.1) :
    (pushEntry key value groups).Pairwise fun a b => a.1 < b.1 := by
  induction groups with
  | nil => simp [pushEntry]
  | cons head rest ih =>
      obtain ⟨k, values⟩ := head
      obtain ⟨above, restSorted⟩ := List.pairwise_cons.mp sorted
      simp only [pushEntry]
      split
      · rename_i less
        refine List.pairwise_cons.mpr ⟨?_, sorted⟩
        intro group member
        rcases List.mem_cons.mp member with rfl | member
        · exact less
        · exact lt_trans less (above group member)
      · rename_i notLess
        split
        · exact List.pairwise_cons.mpr ⟨above, restSorted⟩
        · rename_i differ
          refine List.pairwise_cons.mpr ⟨?_, ih restSorted⟩
          intro group member
          rcases pushEntry_mem key value rest group member with same | ⟨other, inside, same⟩
          · rw [same]
            exact lt_of_le_of_ne (not_lt.mp notLess) (Ne.symm differ)
          · rw [← same]
            exact above other inside

theorem groupEntries_sorted (keyOf : α → κ) (xs : List α) :
    (groupEntries keyOf xs).Pairwise fun a b => a.1 < b.1 := by
  induction xs using List.reverseRecOn with
  | nil => simp [groupEntries]
  | append_singleton xs x ih =>
      rw [groupEntries_append]
      exact pushEntry_sorted _ _ _ ih

theorem filter_ungroup_below {keyOf : α → κ} {groups : List (κ × List α)}
    (ofKeys : ∀ group ∈ groups, ∀ value ∈ group.2, keyOf value = group.1) {key : κ}
    (above : ∀ group ∈ groups, key < group.1) :
    (ungroup groups).filter (fun x => decide (keyOf x = key)) = [] := by
  rw [List.filter_eq_nil_iff]
  intro x inside
  obtain ⟨group, member, inGroup⟩ := List.mem_flatMap.mp inside
  have keyEq := ofKeys group member x inGroup
  simp [keyEq, ne_of_gt (above group member)]

theorem filter_ungroup (keyOf : α → κ) (groups : List (κ × List α))
    (ofKeys : ∀ group ∈ groups, ∀ value ∈ group.2, keyOf value = group.1)
    (sorted : groups.Pairwise fun a b => a.1 < b.1) (group : κ × List α)
    (member : group ∈ groups) :
    (ungroup groups).filter (fun x => decide (keyOf x = group.1)) = group.2 := by
  induction groups with
  | nil => cases member
  | cons head rest ih =>
      obtain ⟨above, restSorted⟩ := List.pairwise_cons.mp sorted
      have headKeys := ofKeys head List.mem_cons_self
      have restKeys : ∀ other ∈ rest, ∀ value ∈ other.2, keyOf value = other.1 :=
        fun other inside => ofKeys other (List.mem_cons_of_mem _ inside)
      rw [ungroup_cons, List.filter_append]
      rcases List.mem_cons.mp member with rfl | member
      · have whole : group.2.filter (fun x => decide (keyOf x = group.1)) = group.2 := by
          rw [List.filter_eq_self]
          intro x inside
          simp [headKeys x inside]
        rw [whole, filter_ungroup_below restKeys above, List.append_nil]
      · have none : head.2.filter (fun x => decide (keyOf x = group.1)) = [] := by
          rw [List.filter_eq_nil_iff]
          intro x inside
          simp [headKeys x inside, ne_of_lt (above group member)]
        rw [none, List.nil_append]
        exact ih restKeys restSorted member

omit [LinearOrder κ] in
theorem ungroup_head? {keyOf : α → κ} {groups : List (κ × List α)} (keyed : Keyed keyOf groups) :
    (ungroup groups).head?.map keyOf = groups.head?.map Prod.fst := by
  cases groups with
  | nil => rfl
  | cons group rest =>
      obtain ⟨nonempty, ofKey⟩ := keyed group List.mem_cons_self
      obtain ⟨value, values, shape⟩ := List.exists_cons_of_ne_nil nonempty
      have first : keyOf value = group.1 := ofKey value (by simp [shape])
      simp [ungroup, shape, first]

omit [LinearOrder κ] in
theorem ungroup_getLast? {keyOf : α → κ} {groups : List (κ × List α)} (keyed : Keyed keyOf groups) :
    (ungroup groups).getLast?.map keyOf = groups.getLast?.map Prod.fst := by
  rcases List.eq_nil_or_concat' groups with rfl | ⟨before, group, rfl⟩
  · rfl
  · obtain ⟨nonempty, ofKey⟩ := keyed group (by simp)
    rcases List.eq_nil_or_concat' group.2 with empty | ⟨values, value, shape⟩
    · exact absurd empty nonempty
    · have last : keyOf value = group.1 := ofKey value (by simp [shape])
      simp [ungroup, shape, last]

def KeySorted (keyOf : α → κ) (xs : List α) : Prop :=
  xs.Pairwise fun a b => keyOf a ≤ keyOf b

theorem KeySorted.of_append {keyOf : α → κ} {xs ys : List α}
    (sorted : KeySorted keyOf (xs ++ ys)) : KeySorted keyOf xs :=
  (List.pairwise_append.mp sorted).1

theorem KeySorted.le_last {keyOf : α → κ} {xs : List α} {x : α}
    (sorted : KeySorted keyOf (xs ++ [x])) {y : α} (member : y ∈ xs) : keyOf y ≤ keyOf x :=
  (List.pairwise_append.mp sorted).2.2 y member x (List.mem_singleton_self x)

/-- The shape of the groups of a sorted, non-empty list: a last group, and only
smaller keys before it. -/
theorem groupEntries_last (keyOf : α → κ) (xs : List α) (x : α)
    (sorted : KeySorted keyOf (xs ++ [x])) :
    ∃ before values,
      groupEntries keyOf (xs ++ [x]) = before ++ [(keyOf x, values ++ [x])] ∧
      (∀ group ∈ before, group.1 < keyOf x) ∧
      groupEntries keyOf xs =
        before ++ (if values = [] then [] else [(keyOf x, values)]) := by
  induction xs using List.reverseRecOn generalizing x with
  | nil => exact ⟨[], [], by simp [groupEntries, pushEntry], by simp, by simp [groupEntries]⟩
  | append_singleton xs y ih =>
      obtain ⟨before, values, shape, below, -⟩ := ih y sorted.of_append
      have order : keyOf y ≤ keyOf x := sorted.le_last (by simp)
      rw [groupEntries_append, shape]
      rcases order.lt_or_eq with less | same
      · refine ⟨before ++ [(keyOf y, values ++ [y])], [], ?_, ?_, by simp⟩
        · rw [pushEntry_above]
          · simp
          · intro group member
            rcases List.mem_append.mp member with member | member
            · exact lt_trans (below group member) less
            · rw [List.mem_singleton.mp member]
              exact less
        · intro group member
          rcases List.mem_append.mp member with member | member
          · exact lt_trans (below group member) less
          · rw [List.mem_singleton.mp member]
            exact less
      · refine ⟨before, values ++ [y], ?_, ?_, by simp [same]⟩
        · rw [← same]
          exact pushEntry_last (keyOf y) x before (values ++ [y]) below
        · intro group member
          rw [← same]
          exact below group member

/-- Grouping a sorted list and writing the groups one after another gives the
list back. -/
theorem ungroup_groupEntries (keyOf : α → κ) (xs : List α) (sorted : KeySorted keyOf xs) :
    ungroup (groupEntries keyOf xs) = xs := by
  induction xs using List.reverseRecOn with
  | nil => simp [groupEntries, ungroup]
  | append_singleton xs x ih =>
      obtain ⟨before, values, shape, -, earlier⟩ := groupEntries_last keyOf xs x sorted
      have prior := ih sorted.of_append
      rw [earlier] at prior
      rw [shape, ungroup_append, ungroup_singleton, ← List.append_assoc]
      congr 1
      by_cases empty : values = []
      · simpa [empty] using prior
      · simpa [empty] using prior

theorem foldl_pushEntry_last (keyOf : α → κ) (key : κ) (xs values : List α)
    (groups : List (κ × List α)) (below : ∀ group ∈ groups, group.1 < key)
    (keyed : ∀ x ∈ xs, keyOf x = key) :
    xs.foldl (fun groups x => pushEntry (keyOf x) x groups) (groups ++ [(key, values)]) =
      groups ++ [(key, values ++ xs)] := by
  induction xs generalizing values with
  | nil => simp
  | cons x xs ih =>
      rw [List.foldl_cons, keyed x (by simp), pushEntry_last key x groups values below,
        ih _ fun other member => keyed other (by simp [member])]
      simp

/-- Writing sorted groups one after another and grouping again gives the groups back. -/
theorem groupEntries_ungroup (keyOf : α → κ) (groups : List (κ × List α))
    (keyed : Keyed keyOf groups) (sorted : groups.Pairwise fun a b => a.1 < b.1) :
    groupEntries keyOf (ungroup groups) = groups := by
  induction groups using List.reverseRecOn with
  | nil => rfl
  | append_singleton groups group ih =>
      obtain ⟨earlier, -, below⟩ := List.pairwise_append.mp sorted
      have prior := ih (fun other member => keyed other (by simp [member])) earlier
      obtain ⟨nonempty, ofKey⟩ := keyed group (by simp)
      obtain ⟨key, values⟩ := group
      obtain ⟨x, xs, rfl⟩ := List.exists_cons_of_ne_nil nonempty
      have less : ∀ group ∈ groups, group.1 < key := fun other member =>
        below other member _ (List.mem_singleton_self _)
      unfold groupEntries at prior ⊢
      rw [ungroup_append, ungroup_singleton, List.foldl_append, prior, List.foldl_cons,
        ofKey x (by simp), pushEntry_above _ _ _ less]
      exact foldl_pushEntry_last keyOf key xs [x] groups less fun other member =>
        ofKey other (by simp [member])

theorem mem_ungroup_pushEntry (key : κ) (value : α) (groups : List (κ × List α)) (x : α) :
    x ∈ ungroup (pushEntry key value groups) ↔ x = value ∨ x ∈ ungroup groups := by
  induction groups with
  | nil => simp [pushEntry, ungroup]
  | cons group rest ih =>
      obtain ⟨k, values⟩ := group
      unfold ungroup at ih ⊢
      rw [pushEntry]
      split
      · simp
      · split
        · simp only [List.flatMap_cons, List.mem_append, List.mem_singleton]
          tauto
        · simp only [List.flatMap_cons, List.mem_append, ih]
          tauto

theorem mem_ungroup_groupEntries (keyOf : α → κ) (xs : List α) (x : α) :
    x ∈ ungroup (groupEntries keyOf xs) ↔ x ∈ xs := by
  induction xs using List.reverseRecOn with
  | nil => simp [groupEntries, ungroup]
  | append_singleton xs last ih =>
      rw [groupEntries_append, mem_ungroup_pushEntry, ih]
      simp [or_comm]

theorem filter_ungroup_pushEntry {keyOf : α → κ} (x : α) {groups : List (κ × List α)}
    (keyed : Keyed keyOf groups) (sorted : groups.Pairwise fun a b => a.1 < b.1) (key : κ) :
    (ungroup (pushEntry (keyOf x) x groups)).filter (fun y => decide (keyOf y = key)) =
      (ungroup groups).filter (fun y => decide (keyOf y = key)) ++
        [x].filter (fun y => decide (keyOf y = key)) := by
  induction groups with
  | nil => simp [pushEntry, ungroup]
  | cons head rest ih =>
      obtain ⟨k, values⟩ := head
      obtain ⟨above, restSorted⟩ := List.pairwise_cons.mp sorted
      have restKeyed : Keyed keyOf rest :=
        fun group member => keyed group (List.mem_cons_of_mem _ member)
      rw [pushEntry]
      split
      · rename_i less
        rw [ungroup_cons, List.filter_append]
        by_cases same : keyOf x = key
        · have none := @filter_ungroup_below _ _ _ keyOf _ keyed.ofKeys key (by
            intro group member
            rw [← same]
            rcases List.mem_cons.mp member with rfl | member
            · exact less
            · exact lt_trans less (above group member))
          rw [none, List.append_nil, List.nil_append]
        · simp [same]
      · split
        · rename_i isKey
          rw [ungroup_cons, ungroup_cons, List.filter_append, List.filter_append,
            List.filter_append]
          by_cases same : keyOf x = key
          · have none := @filter_ungroup_below _ _ _ keyOf _ restKeyed.ofKeys key (by
              intro group member
              rw [← same, isKey]
              exact above group member)
            rw [none, List.append_nil, List.append_nil]
          · simp [same]
        · rw [ungroup_cons, ungroup_cons, List.filter_append, List.filter_append,
            ih restKeyed restSorted, List.append_assoc]

/-- In whatever order the list comes, a group holds what its key selects from it. -/
theorem groupEntries_filter {keyOf : α → κ} {xs : List α} {group : κ × List α}
    (member : group ∈ groupEntries keyOf xs) :
    group.2 = xs.filter fun x => decide (keyOf x = group.1) := by
  have selected (key : κ) : (ungroup (groupEntries keyOf xs)).filter
      (fun x => decide (keyOf x = key)) = xs.filter fun x => decide (keyOf x = key) := by
    clear member
    induction xs using List.reverseRecOn with
    | nil => rfl
    | append_singleton xs x ih =>
        rw [groupEntries_append, filter_ungroup_pushEntry x (groupEntries_keyed keyOf xs)
          (groupEntries_sorted keyOf xs), ih, List.filter_append]
  rw [← selected, filter_ungroup keyOf _ (groupEntries_keyed keyOf xs).ofKeys
    (groupEntries_sorted keyOf xs) group member]

theorem mem_of_mem_group {keyOf : α → κ} {xs : List α} {group : κ × List α}
    (member : group ∈ groupEntries keyOf xs) {x : α} (inside : x ∈ group.2) : x ∈ xs := by
  rw [groupEntries_filter member] at inside
  exact List.mem_of_mem_filter inside

theorem mem_keys_groupEntries (keyOf : α → κ) (xs : List α) (key : κ) :
    key ∈ (groupEntries keyOf xs).map Prod.fst ↔ ∃ x ∈ xs, keyOf x = key := by
  constructor
  · intro listed
    obtain ⟨group, member, rfl⟩ := List.mem_map.mp listed
    obtain ⟨nonempty, ofKey⟩ := groupEntries_keyed keyOf xs group member
    obtain ⟨x, inside⟩ := List.exists_mem_of_ne_nil _ nonempty
    exact ⟨x, mem_of_mem_group member inside, ofKey x inside⟩
  · rintro ⟨x, member, rfl⟩
    rw [← mem_ungroup_groupEntries keyOf] at member
    obtain ⟨group, inGroups, inside⟩ := List.mem_flatMap.mp member
    rw [(groupEntries_keyed keyOf xs).ofKeys group inGroups x inside]
    exact List.mem_map_of_mem inGroups

theorem groupEntries_eq_nil (keyOf : α → κ) (xs : List α) :
    groupEntries keyOf xs = [] ↔ xs = [] := by
  constructor
  · intro empty
    rcases List.eq_nil_or_concat xs with rfl | ⟨earlier, x, rfl⟩
    · rfl
    · rw [List.concat_eq_append, groupEntries_append] at empty
      cases shape : groupEntries keyOf earlier with
      | nil => simp [shape, pushEntry] at empty
      | cons head rest =>
          obtain ⟨k, values⟩ := head
          simp only [shape, pushEntry] at empty
          split at empty
          · cases empty
          · split at empty <;> cases empty
  · rintro rfl
    rfl

end Groups

end EthgasReth.Lib

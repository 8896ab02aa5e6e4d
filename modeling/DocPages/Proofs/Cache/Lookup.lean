-- What the operations of a memory do to the values under its keys. A hit
-- changes no value, and a store changes the value of its own key alone;
-- what it evicts is gone, so a value found behind it was there before.
import DocPages.Compile.Cache

namespace DocPages.Cache

variable {α : Type}

/-! ## Looking up in a list of entries -/

theorem lookup_filter_ne (l : List (String × α)) {key other : String} (h : other ≠ key) :
    (l.filter (·.1 != key)).lookup other = l.lookup other := by
  induction l with
  | nil => rfl
  | cons e rest ih =>
    by_cases hk : e.1 = key
    · have hne : (other == e.1) = false := by simp [hk, h]
      rw [List.filter_cons_of_neg (by simp [hk]), List.lookup_cons, hne, ih]
    · rw [List.filter_cons_of_pos (by simp [hk]), List.lookup_cons, List.lookup_cons, ih]

theorem lookup_of_lookup_take {l : List (String × α)} {n : Nat} {key : String} {value : α}
    (h : (l.take n).lookup key = some value) : l.lookup key = some value := by
  induction l generalizing n with
  | nil => simp at h
  | cons e rest ih =>
    cases n with
    | zero => simp at h
    | succ n =>
      rw [List.take_succ_cons, List.lookup_cons] at h
      rw [List.lookup_cons]
      split at h
      · exact h
      · exact ih h

/-! ## The operations -/

@[simp]
theorem find?_empty (capacity : Nat) (key : String) :
    (empty capacity : Cache α).find? key = none := rfl

theorem contains_eq_true_iff {c : Cache α} {key : String} :
    c.contains key = true ↔ ∃ value, c.find? key = some value := by
  unfold contains
  exact Option.isSome_iff_exists

theorem contains_eq_false_iff {c : Cache α} {key : String} :
    c.contains key = false ↔ c.find? key = none := by
  unfold contains
  simp

theorem get_of_find?_eq_none {c : Cache α} {key : String} (h : c.find? key = none) :
    c.get key = (none, c) := by
  unfold get
  rw [h]

theorem get_of_find?_eq_some {c : Cache α} {key : String} {value : α}
    (h : c.find? key = some value) :
    c.get key = (some value, { c with entries := (key, value) :: c.others key }) := by
  unfold get
  rw [h]

/-- A look-up finds what the memory holds. -/
@[simp]
theorem get_fst (c : Cache α) (key : String) : (c.get key).1 = c.find? key := by
  cases h : c.find? key with
  | none => rw [get_of_find?_eq_none h]
  | some value => rw [get_of_find?_eq_some h]

/-- A look-up changes the order of use and no value. -/
@[simp]
theorem find?_get (c : Cache α) (key other : String) :
    (c.get key).2.find? other = c.find? other := by
  cases h : c.find? key with
  | none => rw [get_of_find?_eq_none h]
  | some value =>
    rw [get_of_find?_eq_some h]
    unfold find? others at *
    rw [List.lookup_cons]
    by_cases hk : other = key
    · subst hk
      simp [h]
    · have hne : (other == key) = false := by simp [hk]
      simp only [hne]
      exact lookup_filter_ne _ hk

/-- A value found behind a store is the stored one, or it was there before under another key. -/
theorem find?_set_eq_some {c : Cache α} {key other : String} {value found : α}
    (h : (c.set key value).find? other = some found) :
    (other = key ∧ found = value) ∨ (other ≠ key ∧ c.find? other = some found) := by
  unfold set find? at h
  have hl := lookup_of_lookup_take h
  rw [List.lookup_cons] at hl
  by_cases hk : other = key
  · subst hk
    simp only [beq_self_eq_true, Option.some.injEq] at hl
    exact .inl ⟨rfl, hl.symm⟩
  · have hne : (other == key) = false := by simp [hk]
    simp only [hne] at hl
    refine .inr ⟨hk, ?_⟩
    unfold find?
    rw [← lookup_filter_ne _ hk]
    exact hl

theorem mem_of_find? {c : Cache α} {key : String} {value : α} (h : c.find? key = some value) :
    (key, value) ∈ c.entries := by
  obtain ⟨front, back, hsplit, _⟩ := List.lookup_eq_some_iff.mp h
  rw [hsplit]
  simp

/-! ## Room -/

/-- A key that is there makes room for itself. -/
theorem length_others_lt {c : Cache α} {key : String} {value : α}
    (h : c.find? key = some value) : (c.others key).length < c.size := by
  unfold others size
  rw [List.length_filter_lt_length_iff_exists]
  exact ⟨(key, value), mem_of_find? h, by simp⟩

theorem size_get_le (c : Cache α) (key : String) : (c.get key).2.size ≤ c.size := by
  cases h : c.find? key with
  | none =>
    exact Nat.le_of_eq (by rw [get_of_find?_eq_none h])
  | some value =>
    rw [get_of_find?_eq_some h]
    exact length_others_lt h

theorem capacity_get (c : Cache α) (key : String) : (c.get key).2.capacity = c.capacity := by
  cases h : c.find? key with
  | none => rw [get_of_find?_eq_none h]
  | some value => rw [get_of_find?_eq_some h]

theorem size_set_le (c : Cache α) (key : String) (value : α) :
    (c.set key value).size ≤ c.size + 1 := by
  have hothers : (c.others key).length ≤ c.size := List.length_filter_le _ _
  have htake := List.length_take_le' c.capacity ((key, value) :: c.others key)
  rw [List.length_cons] at htake
  exact Nat.le_trans htake (Nat.succ_le_succ hothers)

/-- Where there is room left, a store evicts nothing. -/
theorem find?_set_of_room {c : Cache α} (h : c.size < c.capacity) (key other : String)
    (value : α) :
    (c.set key value).find? other = if other = key then some value else c.find? other := by
  have hroom : ((key, value) :: c.others key).length ≤ c.capacity := by
    have hothers : (c.others key).length ≤ c.size := List.length_filter_le _ _
    rw [List.length_cons]
    omega
  unfold set find?
  dsimp only
  rw [List.take_of_length_le hroom, List.lookup_cons]
  by_cases hk : other = key
  · subst hk
    simp
  · have hne : (other == key) = false := by simp [hk]
    rw [if_neg hk]
    simp only [hne]
    exact lookup_filter_ne _ hk

end DocPages.Cache

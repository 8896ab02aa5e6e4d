-- What a memory holds after any row of operations. It keeps its entries in
-- the order in which their keys were touched, as many as there is room for,
-- so a key is held as long as few enough other keys have been touched since.
import DocPages.Proofs.Cache.Lookup
import Mathlib.Data.List.Dedup
import Mathlib.Data.Set.Card

namespace DocPages.Cache

variable {α : Type}

/-! ## Operations and what they leave behind -/

/-- An operation on a memory. -/
inductive Op (α : Type) where
  | set (key : String) (value : α)
  | get (key : String)
  | contains (key : String)
  | clear

/-- The memory behind an operation. -/
def Op.apply (memory : Cache α) : Op α → Cache α
  | .set key value => memory.set key value
  | .get key => (memory.get key).2
  | .contains _ => memory
  | .clear => memory.clear

/-- Whether an operation looks for a value and finds it. -/
def Op.finds (memory : Cache α) : Op α → Bool
  | .get key => (memory.get key).1.isSome
  | _ => false

/-- An operation of the past, and whether it found a value. -/
structure Deed (α : Type) where
  op : Op α
  found : Bool

/-- A memory with its past, the last operation first. -/
structure Lived (α : Type) where
  memory : Cache α
  past : List (Deed α)

/-- One more operation. -/
def Lived.step (l : Lived α) (op : Op α) : Lived α :=
  ⟨op.apply l.memory, ⟨op, op.finds l.memory⟩ :: l.past⟩

/-- A memory that has gone through some operations from its start. -/
def lived (capacity : Nat) (ops : List (Op α)) : Lived α :=
  ops.foldl Lived.step ⟨empty capacity, []⟩

/-! ## What the past says of a key -/

/-- The key that is touched: by a store, or by a look-up that finds it. -/
def Deed.touched? : Deed α → Option String
  | ⟨.set key _, _⟩ => some key
  | ⟨.get key, true⟩ => some key
  | _ => none

/-- The value last stored under a key since the memory was cleared. -/
def latest? (key : String) : List (Deed α) → Option α
  | [] => none
  | ⟨.clear, _⟩ :: _ => none
  | ⟨.set k value, _⟩ :: earlier => if k = key then some value else latest? key earlier
  | _ :: earlier => latest? key earlier

/-- The keys touched since a key was touched itself, last one first. -/
def touchedSince (key : String) (past : List (Deed α)) : List String :=
  (past.filterMap Deed.touched?).takeWhile (· != key)

/-- A key has been stored since the memory was cleared, and fewer distinct other keys than there is
room for have been touched since it was touched itself. -/
def Resident (capacity : Nat) (past : List (Deed α)) (key : String) : Prop :=
  (∃ value, latest? key past = some value) ∧ (touchedSince key past).dedup.length < max 1 capacity

/-! ## The order of touches -/

/-- The keys touched since the memory was cleared, each once, the one touched last first. -/
def order : List (Deed α) → List String
  | [] => []
  | d :: earlier =>
    match d.op, d.touched? with
    | .clear, _ => []
    | _, some key => key :: (order earlier).filter (· != key)
    | _, none => order earlier

/-- What one more operation does to the order and to the latest values. -/
theorem deed_cases (d : Deed α) (past : List (Deed α)) :
    (d.op = .clear ∧ d.touched? = none ∧ order (d :: past) = [] ∧
        ∀ key, latest? key (d :: past) = none) ∨
      (∃ k, d.touched? = some k ∧ order (d :: past) = k :: (order past).filter (· != k) ∧
        ∀ key, key ≠ k → latest? key (d :: past) = latest? key past) ∨
      (d.touched? = none ∧ order (d :: past) = order past ∧
        ∀ key, latest? key (d :: past) = latest? key past) := by
  obtain ⟨op, found⟩ := d
  cases op with
  | set k value =>
    refine .inr (.inl ⟨k, rfl, rfl, fun key hne => ?_⟩)
    rw [latest?, if_neg (Ne.symm hne)]
  | get k =>
    cases found with
    | true => exact .inr (.inl ⟨k, rfl, rfl, fun _ _ => rfl⟩)
    | false => exact .inr (.inr ⟨rfl, rfl, fun _ => rfl⟩)
  | contains k => exact .inr (.inr ⟨rfl, rfl, fun _ => rfl⟩)
  | clear => exact .inl ⟨rfl, rfl, rfl, fun _ => rfl⟩

theorem order_nodup (past : List (Deed α)) : (order past).Nodup := by
  induction past with
  | nil => exact List.nodup_nil
  | cons d past ih =>
    rcases deed_cases d past with ⟨_, _, ho, _⟩ | ⟨k, _, ho, _⟩ | ⟨_, ho, _⟩
    · rw [ho]
      exact List.nodup_nil
    · rw [ho, List.nodup_cons]
      exact ⟨by simp, ih.filter _⟩
    · rw [ho]
      exact ih

/-- A key that has a latest value has been touched. -/
theorem mem_order_of_latest? {key : String} {past : List (Deed α)} {value : α}
    (h : latest? key past = some value) : key ∈ order past := by
  induction past with
  | nil => cases h
  | cons d past ih =>
    rcases deed_cases d past with ⟨_, _, _, hl⟩ | ⟨k, _, ho, hl⟩ | ⟨_, ho, hl⟩
    · rw [hl] at h
      cases h
    · rw [ho]
      by_cases hk : key = k
      · exact hk ▸ List.mem_cons_self
      · rw [hl key hk] at h
        exact List.mem_cons_of_mem _ (List.mem_filter.mpr ⟨ih h, by simpa using hk⟩)
    · rw [ho]
      rw [hl] at h
      exact ih h

theorem takeWhile_filter_ne (l : List String) {key k : String} (h : key ≠ k) :
    (l.filter (· != k)).takeWhile (· != key) = (l.takeWhile (· != key)).filter (· != k) := by
  induction l with
  | nil => rfl
  | cons x l ih =>
    by_cases hx : x = k
    · subst hx
      rw [List.filter_cons_of_neg (by simp), List.takeWhile_cons_of_pos (by simpa using h.symm),
        List.filter_cons_of_neg (by simp), ih]
    · rw [List.filter_cons_of_pos (by simpa using hx)]
      by_cases hkey : x = key
      · subst hkey
        rw [List.takeWhile_cons_of_neg (by simp), List.takeWhile_cons_of_neg (by simp)]
        rfl
      · rw [List.takeWhile_cons_of_pos (by simpa using hkey),
          List.takeWhile_cons_of_pos (by simpa using hkey),
          List.filter_cons_of_pos (by simpa using hx), ih]

/-- In front of a key stand the keys touched since. -/
theorem mem_before_iff {key : String} {past : List (Deed α)} (h : key ∈ order past)
    (other : String) : other ∈ (order past).takeWhile (· != key) ↔ other ∈ touchedSince key past := by
  unfold touchedSince
  induction past with
  | nil => cases h
  | cons d past ih =>
    rcases deed_cases d past with ⟨_, _, ho, _⟩ | ⟨k, ht, ho, _⟩ | ⟨ht, ho, _⟩
    · rw [ho] at h
      cases h
    · rw [ho] at h ⊢
      rw [List.filterMap_cons_some ht]
      by_cases hk : k = key
      · rw [List.takeWhile_cons_of_neg (by simpa using hk),
          List.takeWhile_cons_of_neg (by simpa using hk)]
      · have hmem : key ∈ order past := by
          rcases List.mem_cons.mp h with rfl | h
          · exact absurd rfl hk
          · exact (List.mem_filter.mp h).1
        rw [List.takeWhile_cons_of_pos (by simpa using hk),
          List.takeWhile_cons_of_pos (by simpa using hk), takeWhile_filter_ne _ (Ne.symm hk),
          List.mem_cons, List.mem_cons, List.mem_filter, ih hmem]
        by_cases hother : other = k
        · simp [hother]
        · simp [hother]
    · rw [ho] at h ⊢
      rw [List.filterMap_cons_none ht]
      exact ih h

theorem length_before {key : String} {past : List (Deed α)} (h : key ∈ order past) :
    ((order past).takeWhile (· != key)).length = (touchedSince key past).dedup.length := by
  have hnodup : ((order past).takeWhile (· != key)).Nodup :=
    (order_nodup past).sublist (List.takeWhile_sublist _)
  have hperm : ((order past).takeWhile (· != key)).Perm (touchedSince key past).dedup := by
    rw [List.perm_ext_iff_of_nodup hnodup (List.nodup_dedup _)]
    intro other
    rw [List.mem_dedup, mem_before_iff h]
  exact hperm.length_eq

/-- A key is among the first ones if it is there and few enough stand in front of it. -/
theorem mem_take_iff {key : String} {l : List String} {n : Nat} :
    key ∈ l.take n ↔ key ∈ l ∧ (l.takeWhile (· != key)).length < n := by
  induction l generalizing n with
  | nil => simp
  | cons x l ih =>
    cases n with
    | zero => simp
    | succ n =>
      rw [List.take_succ_cons, List.mem_cons, List.mem_cons, ih]
      by_cases hx : key = x
      · simp [hx]
      · rw [List.takeWhile_cons_of_pos (by simpa using Ne.symm hx), List.length_cons]
        simp [hx]

/-! ## Touching a key -/

/-- Taking out one key makes room for one more. -/
theorem take_filter_take (l : List String) (hl : l.Nodup) (key : String) (n : Nat) :
    ((l.take (n + 1)).filter (· != key)).take n = (l.filter (· != key)).take n := by
  induction l generalizing n with
  | nil => simp
  | cons x l ih =>
    obtain ⟨hx, hl⟩ := List.nodup_cons.mp hl
    rw [List.take_succ_cons]
    by_cases hk : x = key
    · subst hk
      have hall : ∀ m, (l.take m).filter (· != x) = l.take m := by
        intro m
        refine List.filter_eq_self.mpr fun y hy => ?_
        simpa using fun h : y = x => hx (h ▸ List.mem_of_mem_take hy)
      have hself : l.filter (· != x) = l := by
        have h := hall l.length
        rwa [List.take_length] at h
      rw [List.filter_cons_of_neg (by simp), List.filter_cons_of_neg (by simp), hall, hself,
        List.take_take, Nat.min_self]
    · rw [List.filter_cons_of_pos (by simpa using hk), List.filter_cons_of_pos (by simpa using hk)]
      cases n with
      | zero => rfl
      | succ n => rw [List.take_succ_cons, List.take_succ_cons, ih hl]

theorem map_others (memory : Cache α) (key : String) :
    (memory.others key).map Prod.fst = (memory.entries.map Prod.fst).filter (· != key) := by
  unfold others
  rw [List.filter_map]
  rfl

/-! ## The invariant -/

/-- The entries of a memory stand in the order of touches, as many as there is room for, each with
its latest value; and what has been touched has a latest value. -/
structure Recent (capacity : Nat) (l : Lived α) : Prop where
  room : l.memory.capacity = max 1 capacity
  keys : l.memory.entries.map Prod.fst = (order l.past).take (max 1 capacity)
  values : ∀ e ∈ l.memory.entries, latest? e.1 l.past = some e.2
  stored : ∀ key ∈ order l.past, ∃ value, latest? key l.past = some value

theorem recent_empty (capacity : Nat) : Recent capacity (⟨empty capacity, []⟩ : Lived α) :=
  ⟨rfl, List.take_nil.symm, fun _ he => absurd he List.not_mem_nil,
    fun _ hk => absurd hk List.not_mem_nil⟩

variable {capacity : Nat} {l : Lived α}

theorem Recent.keys_nodup (h : Recent capacity l) : (l.memory.entries.map Prod.fst).Nodup := by
  rw [h.keys]
  exact (order_nodup _).sublist (List.take_sublist _ _)

theorem Recent.size_le (h : Recent capacity l) : l.memory.size ≤ max 1 capacity := by
  have hlength := congrArg List.length h.keys
  rw [List.length_map] at hlength
  unfold size
  rw [hlength]
  exact List.length_take_le _ _

/-- What is touched comes to the front, and the others stay in order. -/
theorem Recent.keys_touch (h : Recent capacity l) (key : String) (value : α) :
    (((key, value) :: l.memory.others key).take (max 1 capacity)).map Prod.fst =
      (key :: (order l.past).filter (· != key)).take (max 1 capacity) := by
  obtain ⟨n, hn⟩ : ∃ n, max 1 capacity = n + 1 := ⟨max 1 capacity - 1, by omega⟩
  rw [List.map_take, List.map_cons, map_others, h.keys, hn, List.take_succ_cons,
    List.take_succ_cons, take_filter_take _ (order_nodup _)]

theorem Recent.set (h : Recent capacity l) (key : String) (value : α) :
    Recent capacity (l.step (.set key value)) := by
  have hlatest : ∀ other, other ≠ key →
      latest? other (l.step (.set key value)).past = latest? other l.past := by
    intro other hne
    exact if_neg (Ne.symm hne)
  have hself : latest? key (l.step (.set key value)).past = some value := if_pos rfl
  refine ⟨h.room, ?_, ?_, ?_⟩
  · change (((key, value) :: l.memory.others key).take l.memory.capacity).map Prod.fst = _
    rw [h.room]
    exact h.keys_touch key value
  · intro e he
    rcases List.mem_cons.mp (List.mem_of_mem_take he) with rfl | he
    · exact hself
    · obtain ⟨he, hne⟩ := List.mem_filter.mp he
      rw [hlatest e.1 (by simpa using hne)]
      exact h.values e he
  · intro other ho
    rcases List.mem_cons.mp ho with rfl | ho
    · exact ⟨value, hself⟩
    · obtain ⟨ho, hne⟩ := List.mem_filter.mp ho
      rw [hlatest other (by simpa using hne)]
      exact h.stored other ho

theorem step_of_miss {key : String} (h : l.memory.find? key = none) :
    l.step (.get key) = ⟨l.memory, ⟨.get key, false⟩ :: l.past⟩ := by
  unfold Lived.step Op.apply Op.finds
  dsimp only
  rw [get_of_find?_eq_none h]
  rfl

theorem step_of_hit {key : String} {value : α} (h : l.memory.find? key = some value) :
    l.step (.get key) =
      ⟨{ l.memory with entries := (key, value) :: l.memory.others key },
        ⟨.get key, true⟩ :: l.past⟩ := by
  unfold Lived.step Op.apply Op.finds
  dsimp only
  rw [get_of_find?_eq_some h]
  rfl

theorem Recent.get (h : Recent capacity l) (key : String) :
    Recent capacity (l.step (.get key)) := by
  cases hf : l.memory.find? key with
  | none =>
    rw [step_of_miss hf]
    exact ⟨h.room, h.keys, h.values, h.stored⟩
  | some value =>
    have hmem := mem_of_find? hf
    have hvalue : latest? key l.past = some value := h.values _ hmem
    rw [step_of_hit hf]
    refine ⟨h.room, ?_, ?_, ?_⟩
    · -- The key was there, so no entry has to make room for it.
      have hroom : ((key, value) :: l.memory.others key).length ≤ max 1 capacity := by
        exact Nat.le_trans (length_others_lt hf) h.size_le
      have hkeys := h.keys_touch key value
      rw [List.take_of_length_le hroom] at hkeys
      exact hkeys
    · intro e he
      rcases List.mem_cons.mp he with rfl | he
      · exact hvalue
      · exact h.values e (List.mem_filter.mp he).1
    · intro other ho
      rcases List.mem_cons.mp ho with rfl | ho
      · exact ⟨value, hvalue⟩
      · exact h.stored other (List.mem_filter.mp ho).1

/-- One operation keeps the invariant. -/
theorem Recent.step (h : Recent capacity l) (op : Op α) : Recent capacity (l.step op) := by
  cases op with
  | set key value => exact h.set key value
  | get key => exact h.get key
  | contains key => exact ⟨h.room, h.keys, h.values, h.stored⟩
  | clear =>
    exact ⟨h.room, List.take_nil.symm, fun _ he => absurd he List.not_mem_nil,
      fun _ hk => absurd hk List.not_mem_nil⟩

theorem recent_foldl {l : Lived α} (h : Recent capacity l) (ops : List (Op α)) :
    Recent capacity (ops.foldl Lived.step l) := by
  induction ops generalizing l with
  | nil => exact h
  | cons op ops ih => exact ih (h.step op)

theorem recent_lived (capacity : Nat) (ops : List (Op α)) :
    Recent capacity (lived capacity ops) :=
  recent_foldl (recent_empty capacity) ops

/-! ## What the invariant says of a key -/

theorem Recent.mem_keys_iff (h : Recent capacity l) (key : String) :
    key ∈ l.memory.entries.map Prod.fst ↔ Resident capacity l.past key := by
  unfold Resident
  rw [h.keys, mem_take_iff]
  constructor
  · rintro ⟨hmem, hlt⟩
    exact ⟨h.stored key hmem, length_before hmem ▸ hlt⟩
  · rintro ⟨⟨value, hvalue⟩, hlt⟩
    have hmem := mem_order_of_latest? hvalue
    exact ⟨hmem, (length_before hmem).symm ▸ hlt⟩

/-- A value is found under a key that is held, and it is the latest one. -/
theorem Recent.find?_eq_some_iff (h : Recent capacity l) {key : String} {value : α} :
    l.memory.find? key = some value ↔
      Resident capacity l.past key ∧ latest? key l.past = some value := by
  constructor
  · intro hf
    have hmem := mem_of_find? hf
    exact ⟨(h.mem_keys_iff key).mp (List.mem_map_of_mem hmem), h.values _ hmem⟩
  · rintro ⟨hk, hvalue⟩
    cases hf : l.memory.find? key with
    | some other => rw [← hvalue, h.values _ (mem_of_find? hf)]
    | none =>
      obtain ⟨e, he, rfl⟩ := List.mem_map.mp ((h.mem_keys_iff key).mpr hk)
      have hnone := List.lookup_eq_none_iff.mp hf e he
      simp at hnone

theorem Recent.contains_iff (h : Recent capacity l) (key : String) :
    l.memory.contains key = true ↔ Resident capacity l.past key := by
  rw [contains_eq_true_iff]
  constructor
  · rintro ⟨value, hf⟩
    exact (h.find?_eq_some_iff.mp hf).1
  · intro hk
    obtain ⟨value, hvalue⟩ := hk.1
    exact ⟨value, h.find?_eq_some_iff.mpr ⟨hk, hvalue⟩⟩

theorem Recent.size_eq (h : Recent capacity l) :
    l.memory.size = Set.ncard {key | Resident capacity l.past key} := by
  have hset : {key | Resident capacity l.past key} =
      ((l.memory.entries.map Prod.fst).toFinset : Set String) := by
    ext key
    rw [Set.mem_ofPred_eq, List.coe_toFinset, Set.mem_ofPred_eq, h.mem_keys_iff]
  rw [hset, Set.ncard_coe_finset, List.toFinset_card_of_nodup h.keys_nodup, List.length_map]
  rfl

/-! ## The law -/

/-- After any row of operations a memory holds a key, under its latest value, exactly if the key has
been stored since the memory was cleared and fewer distinct other keys than there is room for have
been touched since. Its size is the number of those keys and within its room. A look-up that finds
nothing changes nothing, nor does the question whether a key is there. -/
theorem a_key_is_held_until_enough_others_are_touched (capacity : Nat) (ops : List (Op α)) :
    (∀ key, (lived capacity ops).memory.contains key = true ↔
        Resident capacity (lived capacity ops).past key) ∧
      (∀ key value, ((lived capacity ops).memory.get key).1 = some value ↔
        Resident capacity (lived capacity ops).past key ∧
          latest? key (lived capacity ops).past = some value) ∧
      (lived capacity ops).memory.size =
        Set.ncard {key | Resident capacity (lived capacity ops).past key} ∧
      (lived capacity ops).memory.size ≤ max 1 capacity ∧
      (∀ key, ((lived capacity ops).memory.get key).1 = none →
        (Op.get key).apply (lived capacity ops).memory = (lived capacity ops).memory) ∧
      ∀ key, (Op.contains key).apply (lived capacity ops).memory =
        (lived capacity ops).memory := by
  have h := recent_lived capacity ops
  refine ⟨h.contains_iff, ?_, h.size_eq, h.size_le, ?_, fun _ => rfl⟩
  · intro key value
    rw [get_fst, h.find?_eq_some_iff]
  · intro key hmiss
    rw [get_fst] at hmiss
    change ((lived capacity ops).memory.get key).2 = _
    rw [get_of_find?_eq_none hmiss]

/-- Behind a look-up that finds the first of two keys, a third one takes the place of the second. -/
example :
    (lived 2 [.set "one" 1, .set "two" 2, .get "one", .set "three" 3]).memory.entries =
      [("three", 3), ("one", 1)] := by
  decide +kernel

end DocPages.Cache

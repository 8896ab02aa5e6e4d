-- Fields of an object. Setting a field does nothing to the others and keeps
-- the order of the keys; where each key comes once, looking one up and holding
-- its field are the same.
import DocPages.Json.Basic
import Mathlib.Data.String.Basic

namespace DocPages.Fields

variable {key other : String} {value : Json} {fields : Fields}

/-! ## Looking up a field -/

theorem get?_cons_self (key : String) (value : Json) (fields : Fields) :
    get? key ((key, value) :: fields) = some value := by
  simp [get?]

theorem get?_cons_ne (h : other ≠ key) (value : Json) (fields : Fields) :
    get? other ((key, value) :: fields) = get? other fields := by
  unfold get?
  rw [List.find?_cons_of_neg (by simpa using Ne.symm h)]

theorem get?_eq_none_iff : get? key fields = none ↔ ∀ f ∈ fields, f.1 ≠ key := by
  simp [get?]

theorem get?_eq_some_iff (h : (fields.map Prod.fst).Nodup) :
    get? key fields = some value ↔ (key, value) ∈ fields := by
  induction fields with
  | nil => simp [get?]
  | cons f rest ih =>
    obtain ⟨k, v⟩ := f
    rw [List.map_cons, List.nodup_cons] at h
    rw [List.mem_cons, Prod.mk.injEq]
    by_cases hk : key = k
    · subst hk
      have hrest : (key, value) ∉ rest := fun hmem => h.1 (List.mem_map.mpr ⟨_, hmem, rfl⟩)
      rw [get?_cons_self, Option.some_inj, eq_comm (a := v)]
      simp [hrest]
    · rw [get?_cons_ne hk, ih h.2]
      simp [hk]

/-! ## Setting a field -/

@[simp]
theorem get?_insert_self (key : String) (value : Json) (fields : Fields) :
    (fields.insert key value).get? key = some value := by
  induction fields with
  | nil => exact get?_cons_self key value []
  | cons f rest ih =>
    obtain ⟨k, v⟩ := f
    unfold insert
    by_cases hk : k = key
    · rw [if_pos (beq_iff_eq.mpr hk), get?_cons_self]
    · rw [if_neg (mt beq_iff_eq.mp hk)]
      split
      · exact get?_cons_self key value _
      · rw [get?_cons_ne (Ne.symm hk)]
        exact ih

theorem get?_insert_ne (h : other ≠ key) (value : Json) (fields : Fields) :
    (fields.insert key value).get? other = fields.get? other := by
  induction fields with
  | nil => exact get?_cons_ne h value []
  | cons f rest ih =>
    obtain ⟨k, v⟩ := f
    unfold insert
    by_cases hk : k = key
    · subst hk
      rw [if_pos (beq_self_eq_true k), get?_cons_ne h, get?_cons_ne h]
    · rw [if_neg (mt beq_iff_eq.mp hk)]
      split
      · exact get?_cons_ne h value _
      · by_cases hother : other = k
        · rw [hother, get?_cons_self, get?_cons_self]
        · rw [get?_cons_ne hother, get?_cons_ne hother, ih]

theorem mem_insert {f : String × Json} (h : f ∈ fields.insert key value) :
    f = (key, value) ∨ f ∈ fields := by
  induction fields with
  | nil => exact Or.inl (List.mem_singleton.mp h)
  | cons g rest ih =>
    obtain ⟨k, v⟩ := g
    rw [insert] at h
    split at h
    · exact (List.mem_cons.mp h).imp_right (List.mem_cons_of_mem _)
    · split at h
      · exact List.mem_cons.mp h
      · rcases List.mem_cons.mp h with rfl | h
        · exact Or.inr List.mem_cons_self
        · exact (ih h).imp_right (List.mem_cons_of_mem _)

/-! ## The order of the keys -/

/-- The keys stand in order, each one once. -/
def Ordered (fields : Fields) : Prop := fields.Pairwise fun f g => f.1 < g.1

theorem ordered_nil : Ordered [] := List.Pairwise.nil

theorem Ordered.nodup (h : fields.Ordered) : (fields.map Prod.fst).Nodup :=
  List.pairwise_map.mpr (h.imp fun hlt => ne_of_lt hlt)

theorem Ordered.insert (h : fields.Ordered) (key : String) (value : Json) :
    (fields.insert key value).Ordered := by
  induction fields with
  | nil => exact List.pairwise_singleton _ _
  | cons f rest ih =>
    obtain ⟨k, v⟩ := f
    obtain ⟨hfirst, hrest⟩ := List.pairwise_cons.mp h
    rw [Fields.insert]
    split
    · rename_i hk
      obtain rfl := beq_iff_eq.mp hk
      exact List.pairwise_cons.mpr ⟨hfirst, hrest⟩
    · rename_i hk
      rw [beq_iff_eq] at hk
      split
      · rename_i hbefore
        have hlt : key < k := of_decide_eq_true hbefore
        refine List.pairwise_cons.mpr ⟨fun g hg => ?_, h⟩
        rcases List.mem_cons.mp hg with rfl | hg
        · exact hlt
        · exact hlt.trans (hfirst g hg)
      · rename_i hbehind
        have hlt : k < key := lt_of_le_of_ne (not_lt.mp fun h => hbehind (decide_eq_true h)) hk
        refine List.pairwise_cons.mpr ⟨fun g hg => ?_, ih hrest⟩
        rcases mem_insert hg with rfl | hg
        · exact hlt
        · exact hfirst g hg

end DocPages.Fields

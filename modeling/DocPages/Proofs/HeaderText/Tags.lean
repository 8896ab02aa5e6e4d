-- Where a tag ends. From a `<` it reaches to the last `>` of the line that has a
-- tag neighbour behind it, or nothing at all.
import DocPages.HeaderText
import DocPages.Proofs.Text.Search

namespace DocPages.HeaderText

/-! ## The end of a tag -/

/-- What stands behind an angle lets it end a tag. -/
def Ends (back : List Char) : Prop := ∀ c ∈ back.head?, isTagNeighbour c = true

theorem ends_iff {back : List Char} : (back.take 1).all isTagNeighbour = true ↔ Ends back := by
  cases back <;> simp [Ends]

instance (back : List Char) : Decidable (Ends back) := decidable_of_iff _ ends_iff

/-- An angle that ends a tag stands in the first line of the text. -/
def Closes (cs : List Char) : Prop :=
  ∃ inner back, cs = inner ++ '>' :: back ∧ '\n' ∉ inner ∧ Ends back

theorem closes_cons {c : Char} {cs : List Char} :
    Closes (c :: cs) ↔ c ≠ '\n' ∧ (Closes cs ∨ c = '>' ∧ Ends cs) := by
  constructor
  · rintro ⟨inner, back, hsplit, hline, hends⟩
    cases inner with
    | nil =>
      obtain ⟨rfl, rfl⟩ := List.cons.inj hsplit
      exact ⟨by decide, Or.inr ⟨rfl, hends⟩⟩
    | cons d inner =>
      obtain ⟨rfl, rfl⟩ := List.cons.inj hsplit
      rw [List.mem_cons, not_or] at hline
      exact ⟨Ne.symm hline.1, Or.inl ⟨inner, back, rfl, hline.2, hends⟩⟩
  · rintro ⟨hc, ⟨inner, back, rfl, hline, hends⟩ | ⟨rfl, hends⟩⟩
    · refine ⟨c :: inner, back, rfl, ?_, hends⟩
      simp [Ne.symm hc, hline]
    · exact ⟨[], cs, rfl, by simp, hends⟩

theorem tagEnd?_cons (c : Char) (cs : List Char) :
    tagEnd? (c :: cs) =
      if c = '\n' then none
      else ((tagEnd? cs).map (· + 1)).or (if c = '>' ∧ Ends cs then some 1 else none) := by
  rw [tagEnd?]
  by_cases hc : c = '\n'
  · simp [hc]
  · cases tagEnd? cs <;> simp [hc, ← ends_iff]

theorem tagEnd?_eq_none_iff {cs : List Char} : tagEnd? cs = none ↔ ¬ Closes cs := by
  induction cs with
  | nil => simp [tagEnd?, Closes]
  | cons c cs ih =>
    rw [closes_cons, tagEnd?_cons]
    by_cases hc : c = '\n'
    · simp [hc]
    · simp [hc, ih]

/-- A tag ends at the last angle of the line that ends one. -/
theorem exists_of_tagEnd? {cs : List Char} {n : Nat} (h : tagEnd? cs = some n) :
    ∃ inner back, cs = inner ++ '>' :: back ∧ n = inner.length + 1 ∧ Ends back ∧ ¬ Closes back := by
  induction cs generalizing n with
  | nil => cases h
  | cons c cs ih =>
    rw [tagEnd?_cons] at h
    split at h
    · cases h
    · cases hlater : tagEnd? cs with
      | some m =>
        rw [hlater] at h
        cases h
        obtain ⟨inner, back, rfl, rfl, hends, hlast⟩ := ih hlater
        exact ⟨c :: inner, back, rfl, rfl, hends, hlast⟩
      | none =>
        rw [hlater, Option.map_none, Option.none_or] at h
        split at h
        · rename_i hhere
          obtain ⟨rfl, hends⟩ := hhere
          cases h
          exact ⟨[], cs, rfl, rfl, hends, tagEnd?_eq_none_iff.mp hlater⟩
        · cases h

/-! ## The start of a tag -/

theorem ne_angle_of_neighbour {c : Char} (hc : isTagNeighbour c = true) : c ≠ '<' := by
  rintro rfl
  revert hc
  decide

/-- A tag is dropped, and the neighbours on both its sides stay. -/
theorem tagAt_of_tagEnd? {c : Char} (hc : isTagNeighbour c = true) {inner back : List Char}
    (h : tagEnd? (inner ++ '>' :: back) = some (inner.length + 1)) (start : Bool) :
    tagAt start (c :: '<' :: (inner ++ '>' :: back)) =
      some ⟨inner.length + 2 + (back.take 1).length, c :: back.take 1⟩ := by
  have hafter : (inner ++ '>' :: back).drop (inner.length + 1) = back := by
    rw [List.append_cons, ← List.length_concat, List.concat_eq_append, List.drop_left]
  unfold tagAt
  split
  · rename_i heq
    exact absurd (List.cons.inj heq).1 (ne_angle_of_neighbour hc)
  · rename_i heq
    simp only [List.cons.injEq, true_and] at heq
    obtain ⟨rfl, rfl⟩ := heq
    rw [if_pos hc, h, Option.map_some, hafter]
  · rename_i hnot _
    exact (hnot _ _ rfl).elim

/-- Nothing begins to be dropped but at a tag neighbour and a tag behind it, or at a tag with which
the text begins. -/
theorem tagAt_eq_none_of_start {start : Bool} {c : Char} {cs : List Char}
    (hfirst : start = true → c = '<' → ¬ Closes cs)
    (h : ∀ rest, cs = '<' :: rest → isTagNeighbour c = true → ¬ Closes rest) :
    tagAt start (c :: cs) = none := by
  unfold tagAt
  split
  · rename_i rest heq
    obtain ⟨rfl, rfl⟩ := List.cons.inj heq
    rw [tagEnd?_eq_none_iff.mpr (hfirst rfl rfl), Option.map_none]
  · rename_i d rest _ heq
    obtain ⟨rfl, rfl⟩ := List.cons.inj heq
    split
    · rename_i hc
      rw [tagEnd?_eq_none_iff.mpr (h rest rfl hc), Option.map_none]
    · rfl
  · rfl

/-- Inside a text nothing begins to be dropped but at a tag neighbour and a tag behind it. -/
theorem tagAt_eq_none {c : Char} {cs : List Char}
    (h : ∀ rest, cs = '<' :: rest → isTagNeighbour c = true → ¬ Closes rest) :
    tagAt false (c :: cs) = none := tagAt_eq_none_of_start nofun h

/-- A text that does not begin with a tag is looked through like the inside of a text. -/
theorem dropTags_of_head {cs : List Char} (h : cs.head? ≠ some '<') :
    dropTags cs = Text.replaceFrom tagAt false 0 cs := by
  unfold dropTags Text.replaceBy
  cases cs with
  | nil => rfl
  | cons c cs =>
    have hc : c ≠ '<' := fun hc => h (congrArg some hc)
    have hflag : tagAt true (c :: cs) = tagAt false (c :: cs) := by
      unfold tagAt
      split <;> simp_all
    rw [Text.replaceFrom, Text.replaceFrom, hflag]

end DocPages.HeaderText

-- The tags of a demo. An angle opens every tag and stands nowhere else in it, so
-- a tag that occurs in two texts in a row occurs in one of them, unless it
-- begins at the end of the first.
import DocPages.Demo.Parts
import DocPages.Proofs.Text.Search
import Mathlib.Data.List.Infix
import Mathlib.Data.List.TakeWhile

namespace DocPages.Demo

/-! ## Where a tag occurs -/

/-- A text that begins with an angle and holds no other one. -/
def IsTag (tag : List Char) : Prop := ∃ inside, tag = '<' :: inside ∧ '<' ∉ inside

/-- A tag does not begin in a text without angles. -/
theorem infix_of_infix_append {tag a b : List Char} (htag : IsTag tag) (ha : '<' ∉ a)
    (h : tag <:+: a ++ b) : tag <:+: b := by
  obtain ⟨inside, rfl, -⟩ := htag
  rcases List.infix_append_iff.mp h with h | h | ⟨front, back, hsplit, hfront, hback⟩
  · exact absurd (h.subset List.mem_cons_self) ha
  · exact h
  · cases front with
    | nil =>
      rw [hsplit]
      exact hback.isInfix
    | cons c front =>
      obtain ⟨rfl, -⟩ := List.cons.inj hsplit
      exact absurd (hfront.subset List.mem_cons_self) ha

/-- A tag does not begin in the first of two texts. -/
theorem not_prefix_drop {tag q t : List Char} (hq : ¬ tag <:+: q)
    (hseam : (∀ c ∈ q.getLast?, c ∉ tag) ∨ ∀ c ∈ t.head?, c ∉ tag.tail) {i : Nat}
    (hi : i < q.length) : ¬ tag <+: (q ++ t).drop i := by
  intro h
  rw [List.drop_append_of_le_length hi.le] at h
  rcases List.prefix_or_prefix_of_prefix h (List.prefix_append _ _) with hshort | ⟨back, rfl⟩
  · exact hq (hshort.isInfix.trans (List.drop_suffix _ _).isInfix)
  -- The rest of the tag is too short to hold it.
  have hback : ¬ q.drop i ++ back <:+: back := by
    intro hwithin
    have hlength := hwithin.length_le
    rw [List.length_append, List.length_drop] at hlength
    omega
  have hhead : (∀ c ∈ t.head?, c ∉ (q.drop i ++ back).tail) →
      ∀ c ∈ back.head?, c ∉ (q.drop i ++ back).tail := by
    intro hnext c hc
    obtain ⟨rest, hrest⟩ := (List.prefix_append_right_inj _).mp h
    refine hnext c ?_
    rw [← hrest, List.head?_append, hc]
    rfl
  have hwhole : q.drop i ++ back <:+: q ++ back := by
    refine ⟨q.take i, [], ?_⟩
    rw [List.append_nil, ← List.append_assoc, List.take_append_drop]
  exact Text.not_infix_append hq hback (hseam.imp_right hhead) hwhole

/-- Where an angle stands in front of the end of a tag, the tag is still to come. -/
theorem infix_drop_of_angle {tag content : List Char} (htag : IsTag tag) (back : List Char) {k : Nat}
    (hk : k < (content ++ tag).length) (hangle : ['<'] <+: (content ++ tag ++ back).drop k) :
    tag <:+: (content ++ tag ++ back).drop k := by
  obtain ⟨inside, rfl, hinside⟩ := htag
  rw [List.append_assoc] at hangle ⊢
  by_cases hle : k ≤ content.length
  · rw [List.drop_append_of_le_length hle]
    exact ⟨_, back, by rw [List.append_assoc]⟩
  · obtain ⟨j, rfl⟩ : ∃ j, k = content.length + (j + 1) := ⟨k - content.length - 1, by omega⟩
    rw [List.length_append, List.length_cons] at hk
    have hj : j < inside.length := by omega
    rw [← List.drop_drop, List.drop_left, List.cons_append, List.drop_succ_cons,
      List.drop_append_of_le_length hj.le, List.drop_eq_getElem_cons hj, List.cons_append,
      List.cons_prefix_cons] at hangle
    exact absurd (hangle.1 ▸ List.getElem_mem hj) hinside

theorem isTag_closing {name : String} (h : '<' ∉ name.toList) : IsTag (closing name) :=
  ⟨'/' :: name.toList ++ ['>'], rfl, by simp [h]⟩

/-- The text in front of a tag does not hold it. -/
theorem before?_eq_some_tag_iff {tag cs front : List Char} (htag : IsTag tag) :
    Text.before? tag cs = some front ↔ front ++ tag <+: cs ∧ ¬ tag <:+: front := by
  obtain ⟨inside, rfl, hinside⟩ := htag
  rw [Text.before?_eq_some_iff]
  refine and_congr_right fun hfront => ?_
  obtain ⟨back, rfl⟩ := hfront
  constructor
  · rintro hfirst ⟨start, rest, rfl⟩
    refine hfirst start.length (by simp) ?_
    simp only [List.append_assoc, List.drop_left]
    exact List.prefix_append _ _
  · intro hfree i hi
    have hhead : ∀ c ∈ ('<' :: inside ++ back).head?, c ∉ ('<' :: inside).tail := by
      rintro c ⟨⟩
      exact hinside
    rw [List.append_assoc]
    exact not_prefix_drop hfree (Or.inr hhead) hi

/-! ## Opening tags -/

/-- What may stand in an opening tag behind the name: nothing, or white space and then anything but
the end of the tag. -/
structure IsAttributes (attributes : List Char) : Prop where
  blank : ∀ c ∈ attributes.head?, Text.isBlank c = true
  inside : '>' ∉ attributes

instance (attributes : List Char) : Decidable (IsAttributes attributes) :=
  decidable_of_iff (attributes.head?.all Text.isBlank = true ∧ '>' ∉ attributes)
    ⟨fun ⟨hblank, hinside⟩ => ⟨(Option.all_eq_true _ _).mp hblank, hinside⟩,
      fun h => ⟨(Option.all_eq_true _ _).mpr h.blank, h.inside⟩⟩

/-- An opening tag. -/
def openTag (name : String) (attributes : List Char) : List Char :=
  opening name ++ attributes ++ ['>']

/-- Where the name of a tag stands, what follows it decides. -/
theorem openTag?_opening (name : String) (rest : List Char) :
    openTag? name (opening name ++ rest) =
      match rest with
      | '>' :: _ => some (opening name ++ ['>'])
      | c :: rest =>
        let inside := rest.takeWhile (· != '>')
        if Text.isBlank c && inside.length < rest.length then
          some (opening name ++ c :: inside ++ ['>'])
        else none
      | [] => none := by
  have hstart : Text.startsWith (opening name) (opening name ++ rest) = true :=
    Text.startsWith_iff.mpr (List.prefix_append _ _)
  unfold openTag?
  dsimp only
  rw [hstart, List.drop_left]
  rfl

/-- There is no opening tag where its name does not stand. -/
theorem openTag?_eq_none {name : String} {cs : List Char} (h : ¬ opening name <+: cs) :
    openTag? name cs = none := by
  rw [← Text.startsWith_iff, Bool.not_eq_true] at h
  unfold openTag?
  dsimp only
  rw [h]
  rfl

theorem takeWhile_inside {inside : List Char} (h : '>' ∉ inside) (rest : List Char) :
    (inside ++ '>' :: rest).takeWhile (· != '>') = inside := by
  have hpass : ∀ c ∈ inside, (c != '>') = true :=
    fun c hc => bne_iff_ne.mpr fun heq => h (heq ▸ hc)
  rw [List.takeWhile_append_of_pos hpass]
  simp

/-- What ends in front of the end of a text ends at an angle. -/
theorem takeWhile_end_prefix {rest : List Char}
    (h : (rest.takeWhile (· != '>')).length < rest.length) :
    rest.takeWhile (· != '>') ++ ['>'] <+: rest := by
  have hsplit := List.takeWhile_append_dropWhile (p := (· != '>')) (l := rest)
  have hnot := List.head?_dropWhile_not (· != '>') rest
  cases hdrop : rest.dropWhile (· != '>') with
  | nil =>
    rw [hdrop, List.append_nil] at hsplit
    rw [hsplit] at h
    exact absurd h (Nat.lt_irrefl _)
  | cons c back =>
    rw [hdrop] at hnot hsplit
    have hc : c = '>' := by simpa using hnot
    rw [hc] at hsplit
    exact ⟨back, by rw [← List.append_cons, hsplit]⟩

/-- An opening tag is read through its end. -/
theorem openTag?_openTag {name : String} {attributes : List Char} (h : IsAttributes attributes)
    (rest : List Char) :
    openTag? name (openTag name attributes ++ rest) = some (openTag name attributes) := by
  unfold openTag
  rw [List.append_assoc, List.append_assoc, openTag?_opening]
  cases attributes with
  | nil =>
    rw [List.append_nil]
    rfl
  | cons c attributes =>
    obtain ⟨hblank, hinside⟩ := h
    rw [List.mem_cons, not_or] at hinside
    have hshort : attributes.length < (attributes ++ '>' :: rest).length := by simp
    have htake := takeWhile_inside hinside.2 rest
    dsimp only [List.cons_append, List.nil_append]
    split
    · rename_i heq
      exact absurd (List.cons.inj heq).1.symm hinside.1
    · rename_i heq
      obtain ⟨rfl, rfl⟩ := List.cons.inj heq
      rw [htake, hblank c rfl, decide_eq_true hshort]
      rfl
    · rename_i heq
      cases heq

/-- What is read as an opening tag is one. -/
theorem exists_of_openTag? {name : String} {cs tag : List Char} (h : openTag? name cs = some tag) :
    ∃ attributes, IsAttributes attributes ∧ tag = openTag name attributes ∧ tag <+: cs := by
  by_cases hstart : opening name <+: cs
  · obtain ⟨rest, rfl⟩ := hstart
    rw [openTag?_opening] at h
    split at h
    · cases h
      refine ⟨[], ⟨by simp, by simp⟩, by simp [openTag], ?_⟩
      exact (List.prefix_append_right_inj _).mpr ⟨_, rfl⟩
    · rename_i c rest hnot
      dsimp only at h
      split at h
      · rename_i hend
        cases h
        rw [Bool.and_eq_true, decide_eq_true_iff] at hend
        obtain ⟨hblank, hshort⟩ := hend
        have hne : c ≠ '>' := hnot
        have hinside : '>' ∉ rest.takeWhile (· != '>') := fun hmem => by
          simpa using List.mem_takeWhile_imp hmem
        refine ⟨c :: rest.takeWhile (· != '>'), ⟨by simpa using hblank, ?_⟩, by simp [openTag], ?_⟩
        · rw [List.mem_cons, not_or]
          exact ⟨hne.symm, hinside⟩
        · rw [List.append_assoc, List.prefix_append_right_inj, List.cons_append,
            List.prefix_cons_inj]
          exact takeWhile_end_prefix hshort
      · cases h
    · cases h
  · rw [openTag?_eq_none hstart] at h
    cases h

/-! ## Through the last closing tag -/

theorem throughLast?_eq_none_iff {needle cs : List Char} (hne : needle ≠ []) :
    throughLast? needle cs = none ↔ ¬ needle <:+: cs := by
  induction cs with
  | nil => simp [throughLast?, hne]
  | cons c cs ih =>
    rw [throughLast?, List.infix_cons_iff, not_or, ← ih, ← Text.startsWith_iff]
    split
    · rename_i text htext
      simp [htext]
    · rename_i hnone
      simp [hnone]

/-- The text through the last of the tags `needle`. -/
theorem throughLast?_eq_some_iff {needle cs text : List Char} (htag : IsTag needle) :
    throughLast? needle cs = some text ↔
      ∃ front back, text = front ++ needle ∧ cs = text ++ back ∧ ¬ needle <:+: back := by
  obtain ⟨inside, hneedle, hinside⟩ := htag
  have hne : needle ≠ [] := by simp [hneedle]
  induction cs generalizing text with
  | nil =>
    constructor
    · exact nofun
    · rintro ⟨front, back, rfl, hcs, -⟩
      simp [hne] at hcs
  | cons c cs ih =>
    rw [throughLast?]
    constructor
    · intro h
      split at h
      · rename_i later hlater
        cases h
        obtain ⟨front, back, rfl, rfl, hback⟩ := ih.mp hlater
        exact ⟨c :: front, back, rfl, rfl, hback⟩
      · rename_i hnone
        split at h
        · rename_i hhere
          cases h
          obtain ⟨back, hback⟩ := Text.startsWith_iff.mp hhere
          refine ⟨[], back, rfl, hback.symm, fun hwithin => ?_⟩
          rw [throughLast?_eq_none_iff hne] at hnone
          rw [hneedle, List.cons_append] at hback
          obtain ⟨-, rfl⟩ := List.cons.inj hback
          exact hnone (hwithin.trans (List.suffix_append _ _).isInfix)
        · cases h
    · rintro ⟨front, back, rfl, hcs, hback⟩
      cases front with
      | nil =>
        rw [List.nil_append] at hcs
        have hnone : throughLast? needle cs = none := by
          rw [throughLast?_eq_none_iff hne]
          rw [hneedle, List.cons_append] at hcs
          obtain ⟨-, rfl⟩ := List.cons.inj hcs
          exact fun h => hback (infix_of_infix_append ⟨inside, hneedle, hinside⟩ hinside h)
        have hhere : Text.startsWith needle (c :: cs) = true :=
          Text.startsWith_iff.mpr ⟨back, hcs.symm⟩
        rw [hnone]
        dsimp only
        rw [hhere]
        rfl
      | cons d front =>
        obtain ⟨rfl, hrest⟩ := List.cons.inj hcs
        rw [ih.mpr ⟨front, back, rfl, hrest, hback⟩]
        rfl

end DocPages.Demo

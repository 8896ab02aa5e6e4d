-- Anchors that an author gives. A heading text gives one exactly if it ends in a
-- group, which is an opening, characters of an anchor and a closing brace, with no
-- more than white space behind it. The search takes the last opening, and as no
-- character of an anchor opens a group, that one is the opening of the group.
import DocPages.Heading.CustomId
import DocPages.Proofs.Text.Trim
import Mathlib.Data.List.Infix

namespace DocPages.Heading

variable {c : Char} {cs front id inner : List Char}

/-! ## The last group -/

/-- The two characters that open a group. -/
def opening : List Char := ['\x7b', '#']

theorem lastGroup?_cons_of_some (h : lastGroup? cs = some (front, id)) (c : Char) :
    lastGroup? (c :: cs) = some (c :: front, id) := by
  unfold lastGroup?
  rw [h]

theorem lastGroup?_cons_of_none (h : lastGroup? cs = none) (hnot : ¬ opening <+: c :: cs) :
    lastGroup? (c :: cs) = none := by
  unfold lastGroup?
  rw [h]
  dsimp only
  split
  · exact absurd (List.prefix_append opening _) hnot
  · rfl

theorem lastGroup?_opening (h : lastGroup? ('#' :: id) = none) :
    lastGroup? (opening ++ id) = some ([], id) := by
  have hgroup : opening ++ id = '\x7b' :: '#' :: id := rfl
  rw [hgroup, lastGroup?, h]

/-- No group opens at the second character of an opening. -/
theorem not_infix_hash (h : ¬ opening <:+: id) : ¬ opening <:+: '#' :: id := by
  rw [List.infix_cons_iff, not_or]
  exact ⟨fun hfirst => absurd (List.cons_prefix_cons.mp hfirst).1 (by decide), h⟩

theorem lastGroup?_eq_none (h : ¬ opening <:+: cs) : lastGroup? cs = none := by
  induction cs with
  | nil => rfl
  | cons c cs ih =>
    rw [List.infix_cons_iff, not_or] at h
    exact lastGroup?_cons_of_none (ih h.2) h.1

/-- The last group is found where no other one is opened behind it. -/
theorem lastGroup?_append (h : ¬ opening <:+: id) (front : List Char) :
    lastGroup? (front ++ (opening ++ id)) = some (front, id) := by
  induction front with
  | nil => exact lastGroup?_opening (lastGroup?_eq_none (not_infix_hash h))
  | cons c front ih => exact lastGroup?_cons_of_some ih c

theorem eq_of_lastGroup? (h : lastGroup? cs = some (front, id)) :
    cs = front ++ (opening ++ id) := by
  induction cs generalizing front with
  | nil => cases h
  | cons c cs ih =>
    cases hrest : lastGroup? cs with
    | some group =>
      rw [lastGroup?_cons_of_some hrest] at h
      cases h
      rw [ih hrest]
      rfl
    | none =>
      by_cases hhere : opening <+: c :: cs
      · obtain ⟨inside, hinside⟩ := hhere
        have hcs : '#' :: inside = cs := (List.cons.inj hinside).2
        rw [← hcs] at hrest
        rw [← hinside, lastGroup?_opening hrest] at h
        cases h
        exact hinside.symm
      · rw [lastGroup?_cons_of_none hrest hhere] at h
        cases h

theorem dropClosingBrace?_eq_some_iff :
    dropClosingBrace? cs = some inner ↔ cs = inner ++ ['\x7d'] := by
  unfold dropClosingBrace?
  split
  · rename_i rest hrest
    rw [List.reverse_eq_cons_iff] at hrest
    rw [hrest, Option.some_inj, List.append_left_inj]
  · rename_i hnot
    simp only [reduceCtorEq, false_iff]
    rintro rfl
    exact hnot inner.reverse (by simp)

/-! ## Groups -/

/-- The text ends in a group that gives an anchor, with white space at most behind it. -/
def EndsInGroup (cs front id : List Char) : Prop :=
  ∃ blanks, cs = front ++ (opening ++ (id ++ '\x7d' :: blanks)) ∧ Text.allBlank blanks = true ∧
    id ≠ [] ∧ ∀ c ∈ id, isIdChar c = true

theorem no_opening (h : ∀ c ∈ id, isIdChar c = true) : ¬ opening <:+: id := fun hin =>
  absurd (h _ (hin.subset List.mem_cons_self)) (by decide)

/-- The group at the end of a text is the last one, and its brace the last character. -/
theorem endsInGroup_iff : EndsInGroup cs front id ↔
    (dropClosingBrace? (Text.trimEnd cs)).bind lastGroup? = some (front, id) ∧
      id ≠ [] ∧ ∀ c ∈ id, isIdChar c = true := by
  have hbrace : Text.isBlank '\x7d' = false := by decide
  constructor
  · rintro ⟨blanks, rfl, hblanks, hne, hchars⟩
    refine ⟨?_, hne, hchars⟩
    have hinner : dropClosingBrace? (Text.trimEnd
        (front ++ (opening ++ (id ++ '\x7d' :: blanks)))) = some (front ++ (opening ++ id)) := by
      rw [dropClosingBrace?_eq_some_iff, Text.trimEnd_eq_concat_iff hbrace]
      exact ⟨blanks, by simp only [List.append_assoc], hblanks⟩
    rw [hinner]
    exact lastGroup?_append (no_opening hchars) front
  · rintro ⟨hfound, hne, hchars⟩
    obtain ⟨inner, hinner, hgroup⟩ := Option.bind_eq_some_iff.mp hfound
    rw [dropClosingBrace?_eq_some_iff, Text.trimEnd_eq_concat_iff hbrace] at hinner
    obtain ⟨blanks, rfl, hblanks⟩ := hinner
    refine ⟨blanks, ?_, hblanks, hne, hchars⟩
    rw [eq_of_lastGroup? hgroup]
    simp only [List.append_assoc]

theorem EndsInGroup.unique {front' id' : List Char} (h : EndsInGroup cs front id)
    (h' : EndsInGroup cs front' id') : front = front' ∧ id = id' := by
  have heq := (endsInGroup_iff.mp h).1.symm.trans (endsInGroup_iff.mp h').1
  exact Prod.mk.inj (Option.some.inj heq)

theorem customIdChars?_eq_some_iff {title : List Char} :
    customIdChars? cs = some (title, id) ↔
      ∃ front, EndsInGroup cs front id ∧ title = Text.trimEnd front := by
  unfold customIdChars?
  simp only [Option.bind_eq_bind, Option.bind_eq_some_iff, endsInGroup_iff]
  constructor
  · rintro ⟨inner, hinner, ⟨front, inside⟩, hgroup, hid⟩
    split at hid
    · rename_i hgood
      cases hid
      rw [Bool.and_eq_true, Bool.not_eq_true', List.isEmpty_eq_false_iff, List.all_eq_true] at hgood
      exact ⟨front, ⟨⟨inner, hinner, hgroup⟩, hgood⟩, rfl⟩
    · cases hid
  · rintro ⟨front, ⟨⟨inner, hinner, hgroup⟩, hne, hchars⟩, rfl⟩
    refine ⟨inner, hinner, (front, id), hgroup, if_pos ?_⟩
    rw [Bool.and_eq_true, Bool.not_eq_true', List.isEmpty_eq_false_iff, List.all_eq_true]
    exact ⟨hne, hchars⟩

theorem customIdChars?_eq_none_iff :
    customIdChars? cs = none ↔ ∀ front id, ¬ EndsInGroup cs front id := by
  rw [Option.eq_none_iff_forall_ne_some]
  constructor
  · intro h front id hgroup
    exact h (Text.trimEnd front, id) (customIdChars?_eq_some_iff.mpr ⟨front, hgroup, rfl⟩)
  · rintro h ⟨title, id⟩ hsome
    obtain ⟨front, hgroup, -⟩ := customIdChars?_eq_some_iff.mp hsome
    exact h front id hgroup

/-! ## The law -/

/-- A heading text is taken apart into a title and an anchor exactly if it ends in a group, and then
the title is what stands in front of the group, less the white space at its end; in every other case
it is handed back untouched. A text ends in one group at most. So a title that ends in no white
space and an anchor of its own come out of whatever they are joined to with white space. -/
theorem a_text_gives_an_anchor_iff_it_ends_in_a_group (text : String) :
    (∀ title id : String, splitCustomId text = (title, some id) ↔
        ∃ front, EndsInGroup text.toList front id.toList ∧ title.toList = Text.trimEnd front) ∧
      (splitCustomId text = (text, none) ↔ ∀ front id, ¬ EndsInGroup text.toList front id) ∧
      (∀ front id front' id', EndsInGroup text.toList front id →
        EndsInGroup text.toList front' id' → front = front' ∧ id = id') ∧
      ∀ title gap id blanks : String, text = title ++ gap ++ "\x7b#" ++ id ++ "\x7d" ++ blanks →
        (∀ c ∈ title.toList.getLast?, Text.isBlank c = false) →
        Text.allBlank gap.toList = true → Text.allBlank blanks.toList = true →
        id ≠ "" → (∀ c ∈ id.toList, isIdChar c = true) → splitCustomId text = (title, some id) := by
  have hgroup : ∀ title id : String, splitCustomId text = (title, some id) ↔
      ∃ front, EndsInGroup text.toList front id.toList ∧ title.toList = Text.trimEnd front := by
    intro title id
    rw [← customIdChars?_eq_some_iff]
    unfold splitCustomId
    cases customIdChars? text.toList with
    | none => simp
    | some found => simp [← String.toList_inj, Prod.ext_iff]
  refine ⟨hgroup, ?_, fun _ _ _ _ h h' => h.unique h', ?_⟩
  · rw [← customIdChars?_eq_none_iff]
    unfold splitCustomId
    cases customIdChars? text.toList with
    | none => simp
    | some found => simp
  · rintro title gap id blanks rfl htitle hgap hblanks hne hchars
    have htrimmed : title.toList = Text.trimEnd (title.toList ++ gap.toList) := by
      rw [Text.trimEnd, Text.trimEndBy_append_of_pos (List.all_eq_true.mp hgap),
        Text.trimEndBy_eq_self htitle]
    refine (hgroup title id).mpr ⟨_, ⟨blanks.toList, ?_, hblanks, ?_, hchars⟩, htrimmed⟩
    · simp [opening]
    · exact fun hnil => hne (String.toList_inj.mp hnil)

/-- The title of a heading holds a group of its own, in front of the one that counts. -/
theorem groupedTitle_is_taken_apart :
    (∀ c ∈ "\u00dcber \x7b#a\x7d".toList.getLast?, Text.isBlank c = false) ∧
      Text.allBlank "\t".toList = true ∧ Text.allBlank " \n".toList = true ∧
      (∀ c ∈ "b_2-C".toList, isIdChar c = true) ∧
      splitCustomId "\u00dcber \x7b#a\x7d\t\x7b#b_2-C\x7d \n" =
        ("\u00dcber \x7b#a\x7d", some "b_2-C") := by
  have htitle : ∀ c ∈ "\u00dcber \x7b#a\x7d".toList.getLast?, Text.isBlank c = false := by
    rintro c ⟨⟩
    decide
  have hchars : ∀ c ∈ "b_2-C".toList, isIdChar c = true := List.all_eq_true.mp (by decide)
  obtain ⟨-, -, -, hjoined⟩ :=
    a_text_gives_an_anchor_iff_it_ends_in_a_group "\u00dcber \x7b#a\x7d\t\x7b#b_2-C\x7d \n"
  refine ⟨htitle, by decide, by decide, hchars, ?_⟩
  exact hjoined _ "\t" _ " \n" (by decide) htitle (by decide) (by decide) (by decide) hchars

end DocPages.Heading

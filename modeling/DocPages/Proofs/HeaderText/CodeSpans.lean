-- Code spans and tags. Whether a tag is dropped is told from the two characters
-- next to it. So a code span loses what reaches from a `<` to a `>` inside it,
-- each with a tag neighbour at its side, and otherwise it stays as it is.
import DocPages.Proofs.HeaderText.Tags

namespace DocPages.HeaderText

/-! ## Tags inside of a code span -/

/-- An angle of the code ends a tag. -/
def Closing (code : List Char) : Prop :=
  ∃ inner right back, code = inner ++ '>' :: right :: back ∧ isTagNeighbour right = true

/-- A `<` stands in the code with a tag neighbour in front of it, and behind it a `>` with a tag
neighbour behind that. -/
def HoldsTag (code : List Char) : Prop :=
  ∃ front left rest, code = front ++ left :: '<' :: rest ∧ isTagNeighbour left = true ∧ Closing rest

/-- The tag of a code: it reaches from its first `<` with a tag neighbour in front of it to its last
`>` with a tag neighbour behind it. -/
structure WidestTag (code front : List Char) (left : Char) (inner : List Char) (right : Char)
    (back : List Char) : Prop where
  split : code = front ++ left :: '<' :: (inner ++ '>' :: right :: back)
  left : isTagNeighbour left = true
  right : isTagNeighbour right = true
  first : ∀ f c g, front = f ++ c :: '<' :: g → isTagNeighbour c = false
  last : ¬ Closing back

/-- A character that stands only in the first of two texts divides that one. -/
theorem exists_of_append_eq {c : Char} {a b front back : List Char} (hb : c ∉ b)
    (h : a ++ b = front ++ c :: back) : ∃ rest, a = front ++ c :: rest ∧ back = rest ++ b := by
  rcases List.append_eq_append_iff.mp h with ⟨more, rfl, rfl⟩ | ⟨more, rfl, hmore⟩
  · simp at hb
  · cases more with
    | nil =>
      rw [List.nil_append] at hmore
      simp [← hmore] at hb
    | cons d more =>
      obtain ⟨rfl, rfl⟩ := List.cons.inj hmore
      exact ⟨more, rfl, rfl⟩

section Span

variable {code after : List Char}

theorem closing_append {front back : List Char} (h : Closing back) : Closing (front ++ back) := by
  obtain ⟨inner, right, rest, rfl, hright⟩ := h
  exact ⟨front ++ inner, right, rest, by simp, hright⟩

/-- The code mark behind a code ends no tag, and so no angle behind it counts. -/
theorem closes_code_iff (hline : '\n' ∉ code) (hafter : '>' ∉ after) :
    Closes (code ++ '\x60' :: after) ↔ Closing code := by
  have htail : '>' ∉ '\x60' :: after := by simp [hafter]
  constructor
  · rintro ⟨inner, back, hsplit, -, hends⟩
    obtain ⟨rest, rfl, rfl⟩ := exists_of_append_eq htail hsplit
    cases rest with
    | nil =>
      exact absurd (hends '\x60' rfl) (by decide)
    | cons right back => exact ⟨inner, right, back, rfl, hends right rfl⟩
  · rintro ⟨inner, right, back, rfl, hright⟩
    refine ⟨inner, right :: back ++ '\x60' :: after, by simp, ?_, ?_⟩
    · exact fun h => hline (List.mem_append_left _ h)
    · rintro c ⟨⟩
      exact hright

/-- Nothing is dropped at a place of a code where no tag of the code begins. -/
theorem tagAt_code {c : Char} (hline : '\n' ∉ code) (hafter : ∀ c ∈ after, c ≠ '<' ∧ c ≠ '>')
    (h : ∀ rest, code = '<' :: rest → isTagNeighbour c = true → ¬ Closing rest) :
    tagAt false (c :: (code ++ '\x60' :: after)) = none := by
  apply tagAt_eq_none
  intro rest hsplit hc
  cases code with
  | nil => simp at hsplit
  | cons d code =>
    obtain ⟨rfl, rfl⟩ := List.cons.inj hsplit
    have hrest : '\n' ∉ code := fun h => hline (List.mem_cons_of_mem _ h)
    have hangle : '>' ∉ after := fun h => (hafter '>' h).2 rfl
    exact fun hcloses => h code rfl hc ((closes_code_iff hrest hangle).mp hcloses)

/-- Behind the last angle of a code nothing is dropped. -/
theorem replaceFrom_behind (hafter : ∀ c ∈ after, c ≠ '<' ∧ c ≠ '>') :
    Text.replaceFrom tagAt false 0 ('\x60' :: after) = '\x60' :: after := by
  have hnone : ∀ rest, rest <:+ '\x60' :: after → tagAt false rest = none := by
    intro rest hrest
    cases rest with
    | nil => rfl
    | cons c rest =>
      apply tagAt_eq_none
      rintro more rfl
      have hmem : '<' ∈ '\x60' :: after := hrest.subset (by simp)
      exact absurd rfl (hafter '<' (by simpa using hmem)).1
  exact Text.replaceFrom_of_none (hnone _ List.suffix_rfl) fun rest h => hnone rest h

/-- A code without tags stays as it is. -/
theorem replaceFrom_code (hline : '\n' ∉ code) (hafter : ∀ c ∈ after, c ≠ '<' ∧ c ≠ '>')
    (h : ¬ HoldsTag code) :
    Text.replaceFrom tagAt false 0 (code ++ '\x60' :: after) = code ++ '\x60' :: after := by
  rw [Text.replaceFrom_keep, replaceFrom_behind hafter]
  rintro c rest ⟨front, rfl⟩
  apply tagAt_code (fun h => hline (by simp [h])) hafter
  rintro more rfl hc hclosing
  exact h ⟨front, c, more, rfl, hc, hclosing⟩

theorem Closing.of_cons {c : Char} {back : List Char} (h : Closing back) : Closing (c :: back) := by
  rw [← List.singleton_append]
  exact closing_append h

/-- Where a tag begins it is dropped up to the last angle that ends one. -/
theorem replaceFrom_tag {c : Char} {rest : List Char} (hc : isTagNeighbour c = true)
    (hline : '\n' ∉ rest) (hafter : ∀ c ∈ after, c ≠ '<' ∧ c ≠ '>') (h : Closing rest) :
    ∃ inner right back, rest = inner ++ '>' :: right :: back ∧ isTagNeighbour right = true ∧
      ¬ Closing back ∧
      Text.replaceFrom tagAt false 0 (c :: '<' :: (rest ++ '\x60' :: after)) =
        c :: right :: (back ++ '\x60' :: after) := by
  have hangle : '>' ∉ after := fun h => (hafter '>' h).2 rfl
  obtain ⟨n, hend⟩ : ∃ n, tagEnd? (rest ++ '\x60' :: after) = some n := by
    rw [← Option.ne_none_iff_exists', Ne, tagEnd?_eq_none_iff, closes_code_iff hline hangle]
    exact not_not.mpr h
  obtain ⟨inner, behind, hsplit, rfl, hends, hlast⟩ := exists_of_tagEnd? hend
  obtain ⟨more, rfl, rfl⟩ := exists_of_append_eq (by simp [hangle]) hsplit
  cases more with
  | nil => exact absurd (hends '\x60' rfl) (by decide)
  | cons right back =>
    have hback : '\n' ∉ right :: back := fun h => hline (by simp [h])
    have hfree : ¬ Closing back := fun h =>
      hlast ((closes_code_iff hback hangle).mpr h.of_cons)
    refine ⟨inner, right, back, rfl, hends right rfl, hfree, ?_⟩
    rw [hsplit] at hend
    have hheld : ¬ HoldsTag back := by
      rintro ⟨front, left, rest, rfl, -, hclosing⟩
      exact hfree (closing_append hclosing.of_cons.of_cons)
    have hkept := replaceFrom_code (fun h => hback (List.mem_cons_of_mem _ h)) hafter hheld
    have htag : tagAt false (c :: ('<' :: inner ++ ['>', right] ++ (back ++ '\x60' :: after))) =
        some ⟨('<' :: inner ++ ['>', right]).length, [c, right]⟩ := by
      have h := tagAt_of_tagEnd? hc hend false
      simpa using h
    have hdropped := Text.replaceFrom_of_some htag
    rw [hkept] at hdropped
    simpa using hdropped

/-- Of a code with tags the widest one is dropped. -/
theorem replaceFrom_widest (hline : '\n' ∉ code) (hafter : ∀ c ∈ after, c ≠ '<' ∧ c ≠ '>')
    (h : HoldsTag code) :
    ∃ front left inner right back, WidestTag code front left inner right back ∧
      Text.replaceFrom tagAt false 0 (code ++ '\x60' :: after) =
        front ++ left :: right :: (back ++ '\x60' :: after) := by
  induction code with
  | nil =>
    obtain ⟨front, left, rest, hsplit, -⟩ := h
    simp at hsplit
  | cons c code ih =>
    rw [List.mem_cons, not_or] at hline
    by_cases hhere : isTagNeighbour c = true ∧ ∃ rest, code = '<' :: rest ∧ Closing rest
    · obtain ⟨hc, rest, rfl, hclosing⟩ := hhere
      have hrest : '\n' ∉ rest := fun h => hline.2 (List.mem_cons_of_mem _ h)
      obtain ⟨inner, right, back, rfl, hright, hlast, hdropped⟩ :=
        replaceFrom_tag hc hrest hafter hclosing
      exact ⟨[], c, inner, right, back, ⟨rfl, hc, hright, by simp, hlast⟩, hdropped⟩
    · have htag : tagAt false (c :: (code ++ '\x60' :: after)) = none := by
        apply tagAt_code hline.2 hafter
        exact fun rest hsplit hc hclosing => hhere ⟨hc, rest, hsplit, hclosing⟩
      have hlater : HoldsTag code := by
        obtain ⟨front, left, rest, hsplit, hleft, hclosing⟩ := h
        cases front with
        | nil =>
          obtain ⟨rfl, rfl⟩ := List.cons.inj hsplit
          exact absurd ⟨hleft, rest, rfl, hclosing⟩ hhere
        | cons d front =>
          exact ⟨front, left, rest, (List.cons.inj hsplit).2, hleft, hclosing⟩
      obtain ⟨front, left, inner, right, back, hwidest, hdropped⟩ := ih hline.2 hlater
      refine ⟨c :: front, left, inner, right, back,
        ⟨?_, hwidest.left, hwidest.right, ?_, hwidest.last⟩, ?_⟩
      · rw [hwidest.split, List.cons_append]
      · intro f d g hfront
        cases f with
        | nil =>
          obtain ⟨rfl, rfl⟩ := List.cons.inj hfront
          by_contra hc
          have hcloses : Closing ('<' :: (inner ++ '>' :: right :: back)) :=
            ⟨'<' :: inner, right, back, rfl, hwidest.right⟩
          exact hhere ⟨by simpa using hc, _, hwidest.split, closing_append hcloses.of_cons⟩
        | cons e f => exact hwidest.first f d g (List.cons.inj hfront).2
      · rw [List.cons_append, Text.replaceFrom, htag]
        dsimp only
        rw [hdropped, List.cons_append]

end Span

/-! ## A code span in a text -/

/-- A code span on one line, in a text without further code marks and angles. -/
structure CodeSpan where
  before : List Char
  code : List Char
  after : List Char
  filled : code ≠ []
  tick : '\x60' ∉ code
  line : '\n' ∉ code
  outside : ∀ c ∈ before ++ after, c ≠ '\x60' ∧ c ≠ '<' ∧ c ≠ '>'

namespace CodeSpan

/-- The text that a code span stands in, with its two code marks around a code. -/
def around (s : CodeSpan) (code : List Char) : List Char :=
  s.before ++ '\x60' :: (code ++ '\x60' :: s.after)

def text (s : CodeSpan) : List Char := s.around s.code

variable (s : CodeSpan)

theorem not_angle_of_after {c : Char} (h : c ∈ s.after) : c ≠ '<' ∧ c ≠ '>' :=
  (s.outside c (List.mem_append_right _ h)).2

theorem not_open_of_front {c : Char} (h : c ∈ s.before ++ ['\x60']) : c ≠ '<' := by
  rcases List.mem_append.mp h with h | h
  · exact (s.outside c (List.mem_append_left _ h)).2.1
  · rw [List.mem_singleton.mp h]
    decide

/-- In front of its code a code span stays, also the code mark, which is no tag neighbour. -/
theorem dropTags_around (code : List Char) :
    dropTags (s.around code) =
      s.before ++ '\x60' :: Text.replaceFrom tagAt false 0 (code ++ '\x60' :: s.after) := by
  have hsplit : s.around code = s.before ++ ['\x60'] ++ (code ++ '\x60' :: s.after) := by
    simp [around]
  have hkeep : ∀ c rest, c :: rest <:+ s.before ++ ['\x60'] →
      tagAt false (c :: (rest ++ (code ++ '\x60' :: s.after))) = none := by
    intro c rest hrest
    apply tagAt_eq_none
    intro more hmore hc
    cases rest with
    | nil =>
      -- The place is that of the code mark.
      obtain ⟨front, hfront⟩ := hrest
      obtain rfl : c = '\x60' := by simpa using congrArg List.getLast? hfront
      exact absurd hc (by decide)
    | cons d rest =>
      obtain ⟨rfl, -⟩ := List.cons.inj hmore
      exact absurd rfl (s.not_open_of_front (hrest.subset (by simp)))
  have hhead : (s.around code).head? ≠ some '<' := by
    intro h
    have hfront : (s.before ++ ['\x60']).head? = some '<' := by
      rw [hsplit] at h
      cases hbefore : s.before <;> simp_all
    exact s.not_open_of_front (List.mem_of_head? hfront) rfl
  rw [dropTags_of_head hhead, hsplit, Text.replaceFrom_keep hkeep]
  simp

/-- A code span loses its widest tag and nothing else. So it is kept exactly if it holds no tag, and
then it comes through the deep pipeline as through the shallow one. -/
theorem a_code_span_loses_its_widest_tag :
    (dropTags s.text = s.text ↔ ¬ HoldsTag s.code) ∧
      (HoldsTag s.code → ∃ front left inner right back,
        WidestTag s.code front left inner right back ∧
          dropTags s.text = s.around (front ++ left :: right :: back)) ∧
      (¬ HoldsTag s.code → deep (String.ofList s.text) = shallow (String.ofList s.text)) := by
  have hkept : ¬ HoldsTag s.code → dropTags s.text = s.text := by
    intro h
    rw [text, dropTags_around, replaceFrom_code s.line (fun _ => s.not_angle_of_after) h]
    rfl
  have hdropped : HoldsTag s.code → ∃ front left inner right back,
      WidestTag s.code front left inner right back ∧
        dropTags s.text = s.around (front ++ left :: right :: back) := by
    intro h
    obtain ⟨front, left, inner, right, back, hwidest, hdropped⟩ :=
      replaceFrom_widest s.line (fun _ => s.not_angle_of_after) h
    refine ⟨front, left, inner, right, back, hwidest, ?_⟩
    rw [text, dropTags_around, hdropped]
    simp [around]
  refine ⟨⟨?_, hkept⟩, hdropped, ?_⟩
  · intro hsame hholds
    obtain ⟨front, left, inner, right, back, hwidest, hshort⟩ := hdropped hholds
    -- A text that loses a tag is shorter.
    have hlength := congrArg List.length (hsame.symm.trans hshort)
    rw [text, around, hwidest.split, around] at hlength
    simp only [List.length_append, List.length_cons] at hlength
    omega
  · intro h
    unfold deep shallow run deepSteps
    rw [String.toList_ofList, runChars_cons]
    exact congrArg (fun cs => String.ofList (runChars shallowSteps cs)) (hkept h)

/-- A name with a type argument. -/
def generic : CodeSpan where
  before := []
  code := ['M', 'a', 'p', '<', 'K', '>', ' ', 'm']
  after := []
  filled := by decide
  tick := by decide
  line := by decide
  outside := List.forall_mem_nil _

/-- A code mark next to an angle keeps a tag, and other characters of the code do not. -/
theorem generic_loses_its_type_argument :
    dropTags generic.text ≠ generic.text ∧
      dropTags generic.text = generic.around ['M', 'a', 'p', ' ', 'm'] := by
  decide

end CodeSpan

end DocPages.HeaderText

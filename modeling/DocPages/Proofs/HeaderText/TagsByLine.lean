-- Tags line by line. A tag does not reach over a line feed, but the line feed
-- behind it is taken for its neighbour and used up. So behind a line that a tag
-- ends the next line cannot begin with a tag. In all else the lines of a text are
-- looked at each for itself.
import DocPages.Proofs.HeaderText.LineTags
import DocPages.Proofs.Text.Lines

namespace DocPages.HeaderText

open Text (line_induction)

/-! ## A line that ends in a tag -/

/-- A tag of the line ends it. -/
def EndsInTag (start : Bool) (line : List Char) : Prop :=
  HasTag start line ∧ line.getLast? = some '>'

instance (start : Bool) (line : List Char) : Decidable (EndsInTag start line) :=
  inferInstanceAs (Decidable (_ ∧ _))

/-- The tag of a line ends it if the line ends in a `>`. -/
theorem LineTag.isEmpty_back {start : Bool} {line front inner back : List Char}
    (hline : '\n' ∉ line) (h : LineTag start line front inner back) :
    back.isEmpty = true ↔ line.getLast? = some '>' := by
  obtain rfl := h.split
  rw [List.isEmpty_iff, List.append_cons, ← List.append_assoc, List.getLast?_append,
    List.getLast?_cons]
  rcases List.eq_nil_or_concat back with rfl | ⟨init, last, rfl⟩
  · simp
  · have hlast : last ≠ '>' := by
      rintro rfl
      exact h.last ⟨init, [], by simp, fun hmem => hline (by simp [hmem]), nofun⟩
    simp [hlast]

/-- A line loses what it loses alone, and tells whether the next line may begin with a tag. -/
theorem dropFrom_break {line : List Char} (hline : '\n' ∉ line) (start : Bool) (rest : List Char) :
    dropFrom start (line ++ '\n' :: rest) =
      dropFrom start line ++ '\n' :: dropFrom (!decide (EndsInTag start line)) rest := by
  have htail : ∀ c ∈ ('\n' :: rest).head?, c = '\n' := by simp
  by_cases h : HasTag start line
  · obtain ⟨front, inner, back, htag⟩ := h.exists_lineTag hline
    have hends : back.isEmpty = decide (EndsInTag start line) := by
      rw [Bool.eq_iff_iff, decide_eq_true_eq, htag.isEmpty_back hline]
      exact (and_iff_right h).symm
    rw [dropFrom_tagged hline htail htag, dropFrom_of_lineTag hline htag, hends]
    rfl
  · have hopen : decide (EndsInTag start line) = false := decide_eq_false fun hends => h hends.1
    rw [dropFrom_untagged htail h, dropFrom_of_not_hasTag h, hopen]
    rfl

/-! ## A text in front of a line -/

/-- Whether the line behind some lines may begin with a tag. Each of them tells it of the next one. -/
def mayBegin (start : Bool) (lines : List (List Char)) : Bool :=
  lines.foldl (fun may line => !decide (EndsInTag may line)) start

/-- What stands behind a line feed is looked at for itself, apart from a tag at its front. -/
theorem dropFrom_append_break (a b : List Char) (start : Bool) :
    dropFrom start (a ++ '\n' :: b) =
      dropFrom start a ++ '\n' :: dropFrom (mayBegin start (Text.splitBy (· == '\n') a)) b := by
  induction a using line_induction generalizing start with
  | last line h =>
    rw [dropFrom_break h, Text.splitBy_of_not_mem h]
    rfl
  | more line rest h ih =>
    rw [List.append_assoc, List.cons_append, dropFrom_break h, dropFrom_break h, ih,
      Text.splitBy_break h, List.append_assoc]
    rfl

/-- The last line of the text ends in a tag that is dropped. -/
def LastLineEndsInTag (text : List Char) : Prop :=
  mayBegin true (Text.splitBy (· == '\n') text) = false

instance (text : List Char) : Decidable (LastLineEndsInTag text) :=
  inferInstanceAs (Decidable (_ = false))

/-- The text begins with a tag. -/
def BeginsWithTag (text : List Char) : Prop := ∃ rest, text = '<' :: rest ∧ Closes rest

/-- Behind a backslash a text is looked at without a tag at its front. -/
theorem dropTags_backslash (text : List Char) : dropTags ('\\' :: text) = '\\' :: dropFrom false text :=
  dropFrom_cons fun _ hc => absurd hc (by decide)

/-- A tag at the front makes a difference. -/
theorem dropFrom_false_eq_iff (text : List Char) :
    dropFrom false text = dropTags text ↔ ¬ BeginsWithTag text := by
  constructor
  · rintro heq ⟨rest, rfl, hcloses⟩
    obtain ⟨inner, back, rfl, hend, hends, -⟩ := hcloses.exists_last
    have hkept : dropFrom false ('<' :: (inner ++ '>' :: back)) =
        '<' :: dropFrom (isTagNeighbour '<') (inner ++ '>' :: back) := dropFrom_cons nofun
    rw [hkept, dropTags_eq, dropFrom_tag hend] at heq
    cases back with
    | nil => cases heq
    | cons c back => exact ne_angle_of_neighbour (hends c rfl) (List.cons.inj heq).1.symm
  · intro h
    exact (dropFrom_flag fun rest htext hcloses => h ⟨rest, htext, hcloses⟩).symm

/-! ## The law -/

/-- Two texts with a line feed between them lose their tags each for itself, unless the last line of
the first ends in a tag that is dropped and the second begins with a tag. Then the second is looked
at as if it stood behind a backslash, and the `<` at its front stays. -/
theorem a_tag_stays_behind_a_line_that_ends_in_one (a b : List Char) :
    (dropTags (a ++ '\n' :: b) = dropTags a ++ '\n' :: dropTags b ↔
        ¬ (LastLineEndsInTag a ∧ BeginsWithTag b)) ∧
      dropTags (a ++ '\n' :: b) = dropTags a ++ '\n' ::
        if LastLineEndsInTag a then (dropTags ('\\' :: b)).tail else dropTags b := by
  have hsplit := dropFrom_append_break a b true
  rw [← dropTags_eq, ← dropTags_eq] at hsplit
  rw [hsplit, List.append_cancel_left_eq, List.cons.injEq, dropTags_backslash, List.tail_cons]
  by_cases h : LastLineEndsInTag a
  · have hmay : mayBegin true (Text.splitBy (· == '\n') a) = false := h
    rw [hmay, dropFrom_false_eq_iff]
    simp [h]
  · have hmay : mayBegin true (Text.splitBy (· == '\n') a) = true := Bool.of_not_eq_false h
    simp [hmay, h, dropTags_eq]

/-- Of two lines that are tags the second keeps its tag. -/
theorem two_tags_in_lines_lose_the_first :
    dropTags "<b>\n<i>".toList = "\n<i>".toList ∧
      dropTags "<b>\n<i>".toList ≠ dropTags "<b>".toList ++ '\n' :: dropTags "<i>".toList := by
  decide

/-- The third of three such lines is dropped again, since the second stays. -/
example : dropTags "<b>\n<i>\n<u>".toList = "\n<i>\n".toList := by decide

end DocPages.HeaderText

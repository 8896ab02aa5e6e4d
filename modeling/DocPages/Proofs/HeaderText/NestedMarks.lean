-- Marks around marks. The marks of a text go in one pass from left to right, and
-- what a mark takes in is not looked at again. So of levels of marks around a
-- text some stay: a mark goes together with the next level inside that begins
-- with the same mark, and the levels between the two stay.
import DocPages.Proofs.HeaderText.EscapedStars

namespace DocPages.HeaderText

/-! ## Levels of marks -/

/-- A text inside of some levels of marks, the outermost first. -/
def wrapped : List (List Char) → List Char → List Char
  | [], text => text
  | mark :: levels, text => mark ++ (wrapped levels text ++ mark)

/-- The levels that stay behind an open mark. It is closed by the next level that begins with it,
and what is left of the mark of that level is open then. -/
def kept (opened : List Char) : List (List Char) → List (List Char)
  | [] => []
  | mark :: levels =>
    if opened <+: mark then kept (mark.drop opened.length) levels else mark :: kept opened levels

theorem wrapped_eq_flatten (levels : List (List Char)) (text : List Char) :
    wrapped levels text = (levels ++ text :: levels.reverse).flatten := by
  induction levels with
  | nil => simp [wrapped]
  | cons mark levels ih => simp [wrapped, ih]

theorem wrapped_append (levels more : List (List Char)) (text : List Char) :
    wrapped (levels ++ more) text =
      levels.flatten ++ (wrapped more text ++ levels.reverse.flatten) := by
  simp [wrapped_eq_flatten]

theorem kept_subset (opened : List Char) (levels : List (List Char)) :
    kept opened levels ⊆ levels := by
  induction levels generalizing opened with
  | nil => exact List.Subset.refl _
  | cons mark levels ih =>
    rw [kept]
    split
    · exact List.subset_cons_of_subset _ (ih _)
    · exact List.cons_subset_cons _ (ih _)

/-- What is left of a mark behind one that it begins with. -/
theorem drop_mark : ∀ opened ∈ [] :: marks, ∀ mark ∈ marks, opened <+: mark →
    mark.drop opened.length ∈ [] :: marks ∧
      opened ++ mark.drop opened.length = mark ∧ mark.drop opened.length ++ opened = mark := by
  decide

/-- In a mark no other mark stands but at its front. -/
theorem prefix_of_infix_mark : ∀ a ∈ marks, ∀ b ∈ marks, a <:+: b → a <+: b := by decide

/-! ## Marks and texts in a row -/

/-- A text or a mark that a mark does not stand in. -/
structure Free (mark t : List Char) : Prop where
  filled : t ≠ []
  free : ¬ mark <:+: t
  line : '\n' ∉ t
  backslash : '\\' ∉ t

theorem free_of_mark {mark other : List Char} (hmark : mark ∈ marks) (hother : other ∈ marks)
    (h : ¬ mark <+: other) : Free mark other := by
  have hplain : ∀ c ∈ markChars, c ≠ '\n' ∧ c ≠ '\\' := List.all_iff_forall_prop.mp (by decide)
  have hmem := mem_markChars other hother
  obtain ⟨m, more, rfl, -⟩ := exists_of_mem_marks hother
  exact {
    filled := List.cons_ne_nil _ _
    free := fun hin => h (prefix_of_infix_mark mark hmark _ hother hin)
    line := fun hline => (hplain _ (hmem _ hline)).1 rfl
    backslash := fun hback => (hplain _ (hmem _ hback)).2 rfl }

section Row

variable {mark : List Char} {texts : List (List Char)}

/-- The characters of a mark do not stand at the front of a row that it is next to. -/
theorem not_mem_of_head_flatten (hne : texts ≠ []) (hfilled : ∀ t ∈ texts, t ≠ [])
    (h : (mark :: texts).IsChain List.Disjoint) : ∀ c ∈ texts.flatten.head?, c ∉ mark := by
  obtain ⟨t, more, rfl⟩ := List.exists_cons_of_ne_nil hne
  rw [List.flatten_cons, List.head?_append_of_ne_nil _ (hfilled t List.mem_cons_self)]
  exact fun c hc hmem => (List.isChain_cons_cons.mp h).1 hmem (List.mem_of_mem_head? hc)

theorem not_mem_of_getLast_flatten (hne : texts ≠ []) (hfilled : ∀ t ∈ texts, t ≠ [])
    (h : (texts ++ [mark]).IsChain List.Disjoint) : ∀ c ∈ texts.flatten.getLast?, c ∉ mark := by
  obtain ⟨most, t, rfl⟩ := (List.eq_nil_or_concat texts).resolve_left hne
  have hlast : [t, mark].IsChain List.Disjoint := h.suffix ⟨most, by simp⟩
  rw [List.concat_eq_append, List.flatten_append, List.flatten_singleton,
    List.getLast?_append_of_ne_nil _ (hfilled t (by simp))]
  exact fun c hc => List.isChain_pair.mp hlast (List.mem_of_mem_getLast? hc)

theorem chain_concat {t : List Char} (h : texts.IsChain List.Disjoint)
    (hlast : ∀ m ∈ texts.getLast?, m.Disjoint t) : (texts ++ [t]).IsChain List.Disjoint := by
  refine h.append (List.isChain_singleton _) fun m hm u hu => ?_
  cases hu
  exact hlast m hm

/-- A row in which no two neighbours have a character in common is taken in by a mark that stands
in none of its texts. -/
theorem between_flatten (hmark : mark ∈ marks) (hne : texts ≠ []) (hfree : ∀ t ∈ texts, Free mark t)
    (hchain : (mark :: (texts ++ [mark])).IsChain List.Disjoint) : Between mark texts.flatten := by
  have hfilled : ∀ t ∈ texts, t ≠ [] := fun t ht => (hfree t ht).filled
  have hpart : ∀ a b : List Char, a.Disjoint b → (∀ c ∈ a, c ∉ mark) ∨ ∀ c ∈ b, c ∉ mark := by
    intro a b hab
    by_contra hboth
    rw [not_or, not_forall, not_forall] at hboth
    obtain ⟨⟨c, hc⟩, d, hd⟩ := hboth
    rw [Classical.not_imp, not_not] at hc hd
    exact hab hc.1 (mark_uniform mark hmark c hc.2 d hd.2 ▸ hd.1)
  have hplain : ∀ c ∈ texts.flatten, c ≠ '\n' ∧ c ≠ '\\' := by
    intro c hc
    obtain ⟨t, ht, hct⟩ := List.mem_flatten.mp hc
    exact ⟨fun h => (hfree t ht).line (h ▸ hct), fun h => (hfree t ht).backslash (h ▸ hct)⟩
  have hfront : (mark :: texts).IsChain List.Disjoint :=
    hchain.prefix ⟨[mark], by rw [List.cons_append]⟩
  have hmiddle : texts.IsChain List.Disjoint := hchain.infix ⟨[mark], [mark], by simp⟩
  obtain ⟨m, more, hm, -⟩ := exists_of_mem_marks hmark
  obtain ⟨t, rest, htexts⟩ := List.exists_cons_of_ne_nil hne
  exact {
    known := hmark
    filled := by simp [htexts, hfilled t (by simp [htexts])]
    line := fun h => (hplain _ h).1 rfl
    free := Text.not_infix_flatten (by simp [hm])
      (fun t ht => ⟨hfilled t ht, (hfree t ht).free⟩) (hmiddle.imp hpart)
    first := not_mem_of_head_flatten hne hfilled hfront
    last := not_mem_of_getLast_flatten hne hfilled hchain.of_cons
    closes := fun h => (hplain _ (List.mem_of_getLast? h)).2 rfl }

end Row

/-! ## Phrases -/

/-- Words with one space between each two. -/
structure Phrase where
  words : List (List Char)
  filled : words ≠ []
  word : ∀ w ∈ words, IsWord w

namespace Phrase

def text (p : Phrase) : List Char := Text.joinWith [' '] p.words

theorem mem_text (p : Phrase) {c : Char} (h : c ∈ p.text) : c = ' ' ∨ ∃ w ∈ p.words, c ∈ w :=
  (Text.mem_joinWith h).imp_left List.mem_singleton.mp

theorem not_mem (p : Phrase) {c : Char} (hsmall : c.val < 128) (hc : c.isAlphanum = false)
    (hspace : c ≠ ' ') : c ∉ p.text := by
  intro h
  rcases p.mem_text h with h | ⟨w, hw, hmem⟩
  · exact hspace h
  · exact (p.word w hw).not_mem hsmall hc hmem

theorem tight (p : Phrase) : Text.Tight p.text := by
  unfold text
  rw [Text.joinWith_eq_intercalate]
  apply Text.tight_intercalate
  intro w hw
  have hdark := (p.word w hw).dark
  exact ⟨(p.word w hw).filled, fun c hc => hdark c (List.mem_of_head? hc),
    fun c hc => hdark c (List.mem_of_getLast? hc)⟩

theorem text_ne_nil (p : Phrase) : p.text ≠ [] := by
  unfold text
  rw [Text.joinWith_eq_intercalate, Ne,
    Text.intercalate_eq_nil_iff fun w hw => (p.word w hw).filled]
  exact p.filled

theorem not_mem_markChars (p : Phrase) : ∀ c ∈ p.text, c ∉ markChars := by
  have hplain : ∀ c ∈ markChars, c.val < 128 ∧ c.isAlphanum = false ∧ c ≠ ' ' :=
    List.all_iff_forall_prop.mp (by decide)
  intro c hc hmem
  exact p.not_mem (hplain c hmem).1 (hplain c hmem).2.1 (hplain c hmem).2.2 hc

/-- No mark stands in a phrase. -/
theorem free (p : Phrase) {mark : List Char} (hmark : mark ∈ marks) : Free mark p.text := by
  obtain ⟨m, more, rfl, hm⟩ := exists_of_mem_marks hmark
  exact {
    filled := p.text_ne_nil
    free := fun hin => p.not_mem_markChars m (hin.subset List.mem_cons_self) hm
    line := p.not_mem (by decide) (by decide) (by decide)
    backslash := p.not_mem (by decide) (by decide) (by decide) }

end Phrase

/-! ## An open mark -/

/-- An open mark, or none, and the levels that it has passed. None of them closes it. -/
structure Passing (opened : List Char) (passed : List (List Char)) : Prop where
  mark : opened ∈ [] :: marks
  known : ∀ m ∈ passed, m ∈ marks
  passes : ∀ m ∈ passed, ¬ opened <+: m

namespace Passing

variable {opened : List Char} {passed : List (List Char)}

theorem start (h : opened ∈ [] :: marks) : Passing opened [] := ⟨h, by simp, by simp⟩

theorem concat (h : Passing opened passed) {mark : List Char} (hmark : mark ∈ marks)
    (hpass : ¬ opened <+: mark) : Passing opened (passed ++ [mark]) where
  mark := h.mark
  known := by simpa [or_imp, forall_and] using ⟨h.known, hmark⟩
  passes := by simpa [or_imp, forall_and] using ⟨h.passes, hpass⟩

theorem reverse (h : Passing opened passed) : Passing opened passed.reverse where
  mark := h.mark
  known := fun m hm => h.known m (List.mem_reverse.mp hm)
  passes := fun m hm => h.passes m (List.mem_reverse.mp hm)

/-- Every level closes where no mark is open. -/
theorem eq_nil (h : Passing [] passed) : passed = [] :=
  List.eq_nil_iff_forall_not_mem.mpr fun m hm => h.passes m hm List.nil_prefix

theorem free (h : Passing opened passed) (hmark : opened ∈ marks) : ∀ t ∈ passed, Free opened t :=
  fun t ht => free_of_mark hmark (h.known t ht) (h.passes t ht)

/-- The levels between an open mark and the one that closes it stay, and the search goes on behind
that. -/
theorem unwrapEmphasis_closed (h : Passing opened passed)
    (hchain : (opened :: (passed ++ [opened])).IsChain List.Disjoint) (back : List Char) :
    unwrapEmphasis (opened ++ (passed.flatten ++ (opened ++ back))) =
      passed.flatten ++ unwrapEmphasis back := by
  rcases List.mem_cons.mp h.mark with rfl | hmark
  · rw [h.eq_nil]
    rfl
  · have hne : passed ≠ [] := by
      rintro rfl
      obtain ⟨m, more, rfl, -⟩ := exists_of_mem_marks hmark
      exact List.isChain_pair.mp hchain List.mem_cons_self List.mem_cons_self
    exact (between_flatten hmark hne (h.free hmark) hchain).unwrap back

end Passing

/-- The mark that closes an open one can stand for the level that it is a part of. -/
theorem chain_closed {opened mark : List Char} {passed levels : List (List Char)}
    (hcloses : opened <+: mark)
    (h : (opened :: (passed ++ mark :: levels)).IsChain List.Disjoint) :
    (opened :: (passed ++ [opened])).IsChain List.Disjoint := by
  rw [← List.cons_append, List.isChain_append] at h
  obtain ⟨hpassed, -, hlast⟩ := h
  rw [← List.cons_append]
  exact chain_concat hpassed fun m hm =>
    List.disjoint_of_subset_right hcloses.subset (hlast m hm mark rfl)

/-- The level that closes a mark is taken off with it, and what is left of it is open inside. -/
theorem wrapped_closed {opened left mark : List Char} (hfront : opened ++ left = mark)
    (hback : left ++ opened = mark) (passed levels : List (List Char)) (text back : List Char) :
    wrapped (opened :: (passed ++ mark :: levels)) text ++ back =
      opened ++ (passed.flatten ++ (opened ++ (wrapped (left :: levels) text ++
        (opened ++ (passed.reverse.flatten ++ (opened ++ back)))))) := by
  have hmark : ∀ inner : List Char,
      mark ++ (inner ++ mark) = opened ++ (left ++ (inner ++ (left ++ opened))) := by
    intro inner
    rw [hback, ← List.append_assoc opened, hfront]
  rw [wrapped, wrapped_append, wrapped, hmark]
  simp [wrapped]

/-! ## Levels around a phrase -/

section Levels

variable (p : Phrase)

theorem disjoint_phrase {mark : List Char} (hmark : mark ∈ marks) : mark.Disjoint p.text :=
  fun _ hc hmem => p.not_mem_markChars _ hmem (mem_markChars mark hmark _ hc)

/-- Where no two neighbours of the levels have a character in common, this is so of the whole row of
their marks around a phrase. -/
theorem chain_row {levels : List (List Char)} (hknown : ∀ m ∈ levels, m ∈ marks)
    (hchain : levels.IsChain List.Disjoint) :
    (levels ++ p.text :: levels.reverse).IsChain List.Disjoint := by
  have hlast : ∀ m ∈ levels.getLast?, m.Disjoint p.text :=
    fun m hm => disjoint_phrase p (hknown m (List.mem_of_mem_getLast? hm))
  rw [List.isChain_split]
  constructor
  · exact chain_concat hchain hlast
  · refine (List.isChain_reverse.mpr (hchain.imp fun _ _ => List.disjoint_symm)).cons ?_
    rw [List.head?_reverse]
    exact fun m hm => List.disjoint_symm (hlast m hm)

/-- An open mark that passes all levels takes in the phrase with them. -/
theorem unwrapEmphasis_passed {opened : List Char} {passed : List (List Char)}
    (h : Passing opened passed) (hchain : (opened :: passed).IsChain List.Disjoint)
    (back : List Char) :
    unwrapEmphasis (wrapped (opened :: passed) p.text ++ back) =
      wrapped passed p.text ++ unwrapEmphasis back := by
  rw [wrapped, List.append_assoc, List.append_assoc]
  rcases List.mem_cons.mp h.mark with rfl | hmark
  · rw [h.eq_nil, wrapped, List.nil_append, List.nil_append]
    apply unwrapEmphasis_keep
    intro c rest hrest
    exact emphasisAt_of_not_mem (p.not_mem_markChars c (hrest.subset List.mem_cons_self)) _
  · have hrow := chain_row p (List.forall_mem_cons.mpr ⟨hmark, h.known⟩) hchain
    have hfree : ∀ t ∈ passed ++ p.text :: passed.reverse, Free opened t := by
      intro t ht
      rcases List.mem_append.mp ht with ht | ht
      · exact h.free hmark t ht
      · rcases List.mem_cons.mp ht with rfl | ht
        · exact p.free hmark
        · exact h.reverse.free hmark t ht
    rw [wrapped_eq_flatten]
    refine (between_flatten hmark (by simp) hfree ?_).unwrap back
    simpa using hrow

/-- An open mark passes every level up to the one that closes it. -/
theorem unwrapEmphasis_wrapped {opened : List Char} {passed levels : List (List Char)}
    (h : Passing opened passed) (hknown : ∀ m ∈ levels, m ∈ marks)
    (hchain : (opened :: (passed ++ levels)).IsChain List.Disjoint) (back : List Char) :
    unwrapEmphasis (wrapped (opened :: (passed ++ levels)) p.text ++ back) =
      wrapped (passed ++ kept opened levels) p.text ++ unwrapEmphasis back := by
  -- On the levels that are still inside: each is passed, or it closes the mark, and what is left of
  -- it is open behind both its halves.
  induction levels generalizing opened passed back with
  | nil =>
    rw [List.append_nil] at hchain ⊢
    rw [kept, List.append_nil]
    exact unwrapEmphasis_passed p h hchain back
  | cons mark levels ih =>
    rw [List.forall_mem_cons] at hknown
    obtain ⟨hmark, hknown⟩ := hknown
    rw [kept]
    split
    · rename_i hcloses
      obtain ⟨hleft, hfront, hends⟩ := drop_mark opened h.mark mark hmark hcloses
      have hout := chain_closed hcloses hchain
      have hback : (opened :: (passed.reverse ++ [opened])).IsChain List.Disjoint := by
        simpa using List.isChain_reverse.mpr (hout.imp fun _ _ => List.disjoint_symm)
      have hlevels : (mark :: levels).IsChain List.Disjoint :=
        hchain.suffix ⟨opened :: passed, by simp⟩
      have hin : (mark.drop opened.length :: levels).IsChain List.Disjoint :=
        hlevels.imp_head fun h => List.disjoint_of_subset_left (List.drop_subset _ _) h
      have hrest := ih (Passing.start hleft) hknown hin
        (opened ++ (passed.reverse.flatten ++ (opened ++ back)))
      rw [List.nil_append, List.nil_append] at hrest
      rw [wrapped_closed hfront hends, h.unwrapEmphasis_closed hout, hrest,
        h.reverse.unwrapEmphasis_closed hback, wrapped_append, List.append_assoc,
        List.append_assoc]
    · rename_i hpass
      have hlater := ih (h.concat hmark hpass) hknown (by simpa using hchain) back
      simpa using hlater

theorem mem_wrapped {levels : List (List Char)} (hknown : ∀ m ∈ levels, m ∈ marks)
    {text : List Char} {c : Char} (h : c ∈ wrapped levels text) : c ∈ text ∨ c ∈ markChars := by
  rw [wrapped_eq_flatten] at h
  obtain ⟨t, ht, hc⟩ := List.mem_flatten.mp h
  have hmark : ∀ m ∈ levels, c ∈ m → c ∈ markChars := fun m hm => mem_markChars m (hknown m hm) c
  rcases List.mem_append.mp ht with ht | ht
  · exact Or.inr (hmark t ht hc)
  · rcases List.mem_cons.mp ht with rfl | ht
    · exact Or.inl hc
    · exact Or.inr (hmark t (List.mem_reverse.mp ht) hc)

theorem not_mem_wrapped {levels : List (List Char)} (hknown : ∀ m ∈ levels, m ∈ marks) {c : Char}
    (hsmall : c.val < 128) (hc : c.isAlphanum = false) (hspace : c ≠ ' ') (hmark : c ∉ markChars) :
    c ∉ wrapped levels p.text := by
  intro h
  exact (mem_wrapped hknown h).elim (p.not_mem hsmall hc hspace) hmark

theorem tight_wrapped {levels : List (List Char)} (hknown : ∀ m ∈ levels, m ∈ marks) :
    Text.Tight (wrapped levels p.text) := by
  have hdark : ∀ c ∈ markChars, Text.isBlank c = false :=
    List.all_iff_forall_prop.mp (by decide)
  cases levels with
  | nil => exact p.tight
  | cons mark levels =>
    have hmark : mark ∈ marks := hknown mark List.mem_cons_self
    have hchars : ∀ c ∈ mark, Text.isBlank c = false :=
      fun c hc => hdark c (mem_markChars mark hmark c hc)
    obtain ⟨m, more, hm, -⟩ := exists_of_mem_marks hmark
    have hne : mark ≠ [] := by simp [hm]
    rw [wrapped]
    constructor
    · rw [List.head?_append_of_ne_nil _ hne]
      exact fun c hc => hchars c (List.mem_of_head? hc)
    · rw [← List.append_assoc, List.getLast?_append_of_ne_nil _ hne]
      exact fun c hc => hchars c (List.mem_of_getLast? hc)

/-- Of a phrase in its marks only the marks go. -/
theorem runChars_wrapped {levels : List (List Char)} (hknown : ∀ m ∈ levels, m ∈ marks)
    (hchain : levels.IsChain List.Disjoint) :
    runChars shallowSteps (wrapped levels p.text) = wrapped (kept [] levels) p.text := by
  have hentities : ∀ e ∈ entities, '&' ∈ e.1 := by decide
  have hand : '&' ∉ wrapped levels p.text :=
    not_mem_wrapped p hknown (by decide) (by decide) (by decide) (by decide)
  have hopen : '[' ∉ wrapped levels p.text :=
    not_mem_wrapped p hknown (by decide) (by decide) (by decide) (by decide)
  have hknown' : ∀ m ∈ kept [] levels, m ∈ marks := fun m hm => hknown m (kept_subset [] levels hm)
  have hbackslash : '\\' ∉ wrapped (kept [] levels) p.text :=
    not_mem_wrapped p hknown' (by decide) (by decide) (by decide) (by decide)
  have hmarks : unwrapEmphasis (wrapped levels p.text) = wrapped (kept [] levels) p.text := by
    have hopened : ([] :: ([] ++ levels)).IsChain List.Disjoint :=
      hchain.cons fun _ _ => List.disjoint_nil_left _
    have hend : unwrapEmphasis [] = [] := rfl
    have hall := unwrapEmphasis_wrapped p (Passing.start List.mem_cons_self) hknown hopened []
    simpa [wrapped, hend] using hall
  rw [runChars_shallow, decodeEntities_of_not_infix fun e he h => hand (h.subset (hentities e he)),
    unwrapLinks_of_not_mem hopen, hmarks, unescapePunctuation_of_not_mem hbackslash,
    Text.trim_of_tight (tight_wrapped p hknown')]

end Levels

/-! ## The law -/

theorem wrapped_eq_text_iff (p : Phrase) {levels : List (List Char)}
    (hknown : ∀ m ∈ levels, m ∈ marks) : wrapped levels p.text = p.text ↔ levels = [] := by
  constructor
  · intro h
    cases levels with
    | nil => rfl
    | cons mark levels =>
      obtain ⟨m, more, rfl, hm⟩ := exists_of_mem_marks (hknown mark List.mem_cons_self)
      have hmem : m ∈ p.text := by
        rw [← h]
        simp [wrapped]
      exact absurd hm (p.not_mem_markChars m hmem)
  · rintro rfl
    rfl

/-- The outermost level goes, and with it none that stands next to it. -/
theorem kept_eq_nil_iff {levels : List (List Char)} (hknown : ∀ m ∈ levels, m ∈ marks)
    (hchain : levels.IsChain List.Disjoint) : kept [] levels = [] ↔ levels.length ≤ 1 := by
  match levels with
  | [] => simp [kept]
  | [mark] => simp [kept]
  | mark :: next :: levels =>
    obtain ⟨m, more, rfl, -⟩ := exists_of_mem_marks (hknown mark List.mem_cons_self)
    have hapart : ¬ m :: more <+: next := fun h =>
      (List.isChain_cons_cons.mp hchain).1 List.mem_cons_self (h.subset List.mem_cons_self)
    rw [kept, if_pos List.nil_prefix, List.length_nil, List.drop_zero, kept, if_neg hapart]
    simp

/-- A phrase inside of levels of marks, the outermost first. Next to each other stand marks of
different characters. -/
structure Nested where
  levels : List (List Char)
  phrase : Phrase
  known : ∀ m ∈ levels, m ∈ marks
  apart : levels.IsChain List.Disjoint

def Nested.text (n : Nested) : String := String.ofList (wrapped n.levels n.phrase.text)

/-- Of the levels of marks around a phrase those stay that stand between a mark and the one that
closes it. So the phrase comes out bare exactly if there is at most one level. -/
theorem nested_marks_go_iff_one_level (n : Nested) :
    shallow n.text = String.ofList (wrapped (kept [] n.levels) n.phrase.text) ∧
      (shallow n.text = String.ofList n.phrase.text ↔ n.levels.length ≤ 1) := by
  have hrun : shallow n.text = String.ofList (wrapped (kept [] n.levels) n.phrase.text) := by
    unfold shallow run Nested.text
    rw [String.toList_ofList, runChars_wrapped n.phrase n.known n.apart]
  refine ⟨hrun, ?_⟩
  have hknown : ∀ m ∈ kept [] n.levels, m ∈ marks := fun m hm => n.known m (kept_subset _ _ hm)
  rw [hrun, String.ofList_inj, wrapped_eq_text_iff n.phrase hknown,
    kept_eq_nil_iff n.known n.apart]

/-- The outer star goes with the first of the inner two, and the second of them with its own. -/
example : shallow "*_**new pages**_*" = "_new pages_" := by decide

/-- A code span between two stars on each side. -/
def boldCode : Nested where
  levels := [['*', '*'], ['\x60']]
  phrase := ⟨[['a']], by simp, by decide⟩
  known := by decide
  apart := by simp

theorem boldCode_keeps_its_code_marks :
    boldCode.text = "**\x60a\x60**" ∧ shallow boldCode.text = "\x60a\x60" ∧
      shallow boldCode.text ≠ String.ofList boldCode.phrase.text := by
  have htext : boldCode.text = "**\x60a\x60**" := by decide
  have hshallow : shallow boldCode.text = "\x60a\x60" := by
    rw [htext]
    decide
  refine ⟨htext, hshallow, ?_⟩
  rw [hshallow]
  decide

end DocPages.HeaderText

-- The words of an anchor. What is left of a text when its runs of separators have
-- become dashes and its ends are cut is made of words with a single dash between
-- each two; and what is made so is left as it is.
import DocPages.Proofs.Heading.Slugs

namespace DocPages.Heading

variable {c d : Char} {cs w : List Char}

/-! ## Words -/

/-- A character of a word is no separator and no control character. -/
def isWordChar (c : Char) : Bool := !isSeparator c && !isControl c

theorem isWordChar_iff : isWordChar c = true ↔ isSeparator c = false ∧ isControl c = false := by
  simp [isWordChar]

theorem ne_dash_of_isWordChar (h : isWordChar c = true) : c ≠ '-' := by
  rintro rfl
  revert h
  decide

/-- Words of at least one character, with a single dash between each two. -/
inductive Worded : List Char → Prop
  | single {c : Char} (hc : isWordChar c = true) : Worded [c]
  | cons {c : Char} {w : List Char} (hc : isWordChar c = true) (hw : Worded w) : Worded (c :: w)
  | dash {c : Char} {w : List Char} (hc : isWordChar c = true) (hw : Worded w) :
      Worded (c :: '-' :: w)

/-- What may stand behind a character of a word. -/
inductive Behind : List Char → Prop
  | nothing : Behind []
  | word {w : List Char} (hw : Worded w) : Behind w
  | dash {w : List Char} (hw : Worded w) : Behind ('-' :: w)

theorem Behind.worded (hc : isWordChar c = true) (h : Behind cs) : Worded (c :: cs) := by
  cases h with
  | nothing => exact .single hc
  | word hw => exact .cons hc hw
  | dash hw => exact .dash hc hw

theorem Behind.worded_append {word : List Char} (hword : ∀ c ∈ word, isWordChar c = true)
    (hne : word ≠ []) (h : Behind cs) : Worded (word ++ cs) := by
  induction word with
  | nil => exact absurd rfl hne
  | cons c word ih =>
    obtain ⟨hc, hrest⟩ := List.forall_mem_cons.mp hword
    cases word with
    | nil => exact h.worded hc
    | cons d word => exact .cons hc (ih hrest (List.cons_ne_nil d word))

namespace Worded

theorem exists_cons (hw : Worded w) : ∃ c rest, w = c :: rest ∧ isWordChar c = true := by
  cases hw with
  | single hc => exact ⟨_, _, rfl, hc⟩
  | cons hc _ => exact ⟨_, _, rfl, hc⟩
  | dash hc _ => exact ⟨_, _, rfl, hc⟩

theorem ne_nil (hw : Worded w) : w ≠ [] := by
  obtain ⟨c, rest, rfl, -⟩ := hw.exists_cons
  exact List.cons_ne_nil c rest

theorem head?_ne_dash (hw : Worded w) : w.head? ≠ some '-' := by
  obtain ⟨c, rest, rfl, hc⟩ := hw.exists_cons
  exact fun h => ne_dash_of_isWordChar hc (Option.some.inj h)

theorem getLast?_ne_dash (hw : Worded w) : w.getLast? ≠ some '-' := by
  induction hw with
  | single hc => exact fun h => ne_dash_of_isWordChar hc (Option.some.inj h)
  | cons _ hw ih => rwa [List.getLast?_cons_of_ne_nil hw.ne_nil]
  | dash _ hw ih =>
    rwa [List.getLast?_cons_of_ne_nil (List.cons_ne_nil _ _),
      List.getLast?_cons_of_ne_nil hw.ne_nil]

theorem mem (hw : Worded w) (hd : d ∈ w) : d = '-' ∨ isWordChar d = true := by
  induction hw with
  | single hc => exact .inr (List.mem_singleton.mp hd ▸ hc)
  | cons hc _ ih =>
    rcases List.mem_cons.mp hd with rfl | hd
    · exact .inr hc
    · exact ih hd
  | dash hc _ ih =>
    rcases List.mem_cons.mp hd with rfl | hd
    · exact .inr hc
    · rcases List.mem_cons.mp hd with rfl | hd
      · exact .inl rfl
      · exact ih hd

theorem not_double (hw : Worded w) : ¬ ['-', '-'] <:+: w := by
  have hfirst : ∀ {c : Char} {rest : List Char}, isWordChar c = true →
      ¬ ['-', '-'] <+: c :: rest := fun hc h =>
    ne_dash_of_isWordChar hc (List.cons_prefix_cons.mp h).1.symm
  induction hw with
  | single hc => exact fun h => by simpa using h.length_le
  | cons hc _ ih => exact fun h => (List.infix_cons_iff.mp h).elim (hfirst hc) ih
  | dash hc hw ih =>
    rw [List.infix_cons_iff, List.infix_cons_iff]
    rintro (h | h | h)
    · exact hfirst hc h
    · -- The second dash would be the first character of a word.
      obtain ⟨d, rest, rfl, hd⟩ := hw.exists_cons
      obtain ⟨-, h⟩ := List.cons_prefix_cons.mp h
      exact ne_dash_of_isWordChar hd (List.cons_prefix_cons.mp h).1.symm
    · exact ih h

end Worded

/-! ## Runs of separators -/

theorem head?_dashRuns_true (cs : List Char) : (dashRuns true cs).head? ≠ some '-' := by
  induction cs with
  | nil => nofun
  | cons c cs ih =>
    rw [dashRuns]
    by_cases hc : isSeparator c = true
    · rw [if_pos hc, if_pos rfl]
      exact ih
    · rw [if_neg hc]
      intro h
      obtain rfl := Option.some.inj h
      exact hc (by decide)

/-- The dash of a run at the front is the only one there. -/
theorem dropWhile_dashRuns (cs : List Char) :
    (dashRuns false cs).dropWhile (· == '-') = dashRuns true cs := by
  have hhead : ∀ {text : List Char}, text.head? ≠ some '-' →
      text.dropWhile (· == '-') = text := by
    intro text h
    cases text with
    | nil => rfl
    | cons c text => exact List.dropWhile_cons_of_neg (by simpa using h)
  cases cs with
  | nil => rfl
  | cons c cs =>
    rw [dashRuns, dashRuns]
    by_cases hc : isSeparator c = true
    · rw [if_pos hc, if_pos hc, if_neg Bool.false_ne_true, if_pos rfl]
      exact (List.dropWhile_cons_of_pos rfl).trans (hhead (head?_dashRuns_true cs))
    · rw [if_neg hc, if_neg hc]
      refine hhead fun h => ?_
      obtain rfl := Option.some.inj h
      exact hc (by decide)

/-- A text less its marks and control characters. -/
def kept (cs : List Char) : List Char :=
  (cs.filter fun c => !isCombining c).filter fun c => !isControl c

theorem mem_kept_iff : c ∈ kept cs ↔ c ∈ cs ∧ isCombining c = false ∧ isControl c = false := by
  simp [kept, and_comm]

theorem words_eq (cs : List Char) :
    words cs = Text.trimEndBy (· == '-') (dashRuns true (kept cs)) := by
  rw [← dropWhile_dashRuns]
  rfl

theorem behind_dashRuns (h : ∀ c ∈ cs, isControl c = false) (inRun : Bool) :
    Behind (Text.trimEndBy (· == '-') (dashRuns inRun cs)) := by
  induction cs generalizing inRun with
  | nil => exact .nothing
  | cons c cs ih =>
    obtain ⟨hc, hrest⟩ := List.forall_mem_cons.mp h
    rw [dashRuns]
    by_cases hsep : isSeparator c = true
    · rw [if_pos hsep]
      cases inRun with
      | true => exact ih hrest true
      | false =>
        rw [if_neg Bool.false_ne_true, Text.trimEndBy_cons]
        split
        · exact .nothing
        · rename_i hne
          have hbehind := ih hrest true
          have hhead : (Text.trimEndBy (· == '-') (dashRuns true cs)).head? ≠ some '-' :=
            fun h => head?_dashRuns_true cs (Text.head?_of_prefix (Text.trimEndBy_prefix _ _) h)
          generalize Text.trimEndBy (· == '-') (dashRuns true cs) = text at hne hbehind hhead
          cases hbehind with
          | nothing => exact absurd rfl hne
          | word hw => exact .dash hw
          | dash _ => exact absurd rfl hhead
    · rw [if_neg hsep]
      have hword : isWordChar c = true := isWordChar_iff.mpr ⟨Bool.eq_false_iff.mpr hsep, hc⟩
      have hdash : (c == '-') = false := beq_false_of_ne (ne_dash_of_isWordChar hword)
      have hfirst := Text.trimEndBy_cons_of_neg (p := (· == '-')) hdash (dashRuns false cs)
      rw [hfirst]
      exact .word ((ih hrest false).worded hword)

/-- What is left of a text is its words, if there are any. -/
theorem worded_words (cs : List Char) : words cs = [] ∨ Worded (words cs) := by
  have hbehind : Behind (words cs) := by
    rw [words_eq]
    exact behind_dashRuns (fun c hc => (mem_kept_iff.mp hc).2.2) true
  have hhead : (words cs).head? ≠ some '-' := by
    rw [words_eq]
    exact fun h => head?_dashRuns_true _ (Text.head?_of_prefix (Text.trimEndBy_prefix _ _) h)
  generalize words cs = text at hbehind hhead
  cases hbehind with
  | nothing => exact .inl rfl
  | word hw => exact .inr hw
  | dash _ => exact absurd rfl hhead

theorem mem_dashRuns_iff (hc : isSeparator c = false) (inRun : Bool) :
    c ∈ dashRuns inRun cs ↔ c ∈ cs := by
  constructor
  · intro h
    rcases mem_dashRuns inRun h with rfl | ⟨-, h⟩
    · exact absurd hc (by decide)
    · exact h
  · intro h
    induction cs generalizing inRun with
    | nil => cases h
    | cons d cs ih =>
      rw [dashRuns]
      rcases List.mem_cons.mp h with rfl | h
      · rw [hc]
        exact List.mem_cons_self
      · split
        · split
          · exact ih true h
          · exact List.mem_cons_of_mem _ (ih true h)
        · exact List.mem_cons_of_mem _ (ih false h)

/-- No mark comes into the words of a text. -/
theorem isCombining_of_mem_words (h : c ∈ words cs) : isCombining c = false := by
  rw [words_eq] at h
  rcases mem_dashRuns true ((Text.trimEndBy_prefix _ _).subset h) with rfl | ⟨-, h⟩
  · decide
  · exact (mem_kept_iff.mp h).2.1

/-- No character of a word is lost. -/
theorem mem_words_iff (hword : isWordChar c = true) (hmark : isCombining c = false) :
    c ∈ words cs ↔ c ∈ cs := by
  obtain ⟨hsep, hcontrol⟩ := isWordChar_iff.mp hword
  rw [words_eq]
  obtain ⟨cut, hcut, hdashes, -⟩ := Text.trimEndBy_spec (· == '-') (dashRuns true (kept cs))
  have hnot : c ∉ cut := fun h => ne_dash_of_isWordChar hword (beq_iff_eq.mp (hdashes c h))
  have hruns : c ∈ dashRuns true (kept cs) ↔ c ∈ cs := by
    rw [mem_dashRuns_iff hsep, mem_kept_iff]
    exact and_iff_left ⟨hmark, hcontrol⟩
  rw [← hruns]
  conv_rhs => rw [hcut]
  rw [List.mem_append]
  exact (or_iff_left hnot).symm

/-! ## Words stay -/

theorem dashRuns_cons (hc : isWordChar c = true) (inRun : Bool) (cs : List Char) :
    dashRuns inRun (c :: cs) = c :: dashRuns false cs := by
  rw [dashRuns, (isWordChar_iff.mp hc).1]
  rfl

theorem dashRuns_dash (cs : List Char) : dashRuns false ('-' :: cs) = '-' :: dashRuns true cs := rfl

theorem Worded.dashRuns_eq (hw : Worded w) (inRun : Bool) : dashRuns inRun w = w := by
  induction hw generalizing inRun with
  | single hc => exact dashRuns_cons hc inRun []
  | cons hc _ ih => rw [dashRuns_cons hc, ih]
  | dash hc _ ih => rw [dashRuns_cons hc, dashRuns_dash, ih]

theorem Worded.trimEndBy_eq (hw : Worded w) : Text.trimEndBy (· == '-') w = w := by
  refine Text.trimEndBy_eq_self fun c hc => beq_false_of_ne ?_
  rintro rfl
  exact hw.getLast?_ne_dash hc

/-- The words of an anchor are those that it was made of. -/
theorem words_guardDigit (hw : Worded w) (hmarks : ∀ c ∈ w, isCombining c = false) :
    words (guardDigit w) = w := by
  have hwhole : kept w = w := by
    unfold kept
    rw [List.filter_filter, List.filter_eq_self]
    intro c hc
    have hcontrol : isControl c = false := by
      rcases hw.mem hc with rfl | hword
      · decide
      · exact (isWordChar_iff.mp hword).2
    rw [hmarks c hc, hcontrol]
    rfl
  rw [words_eq, guardDigit_eq]
  split
  · have hscore : kept ('_' :: w) = '_' :: kept w := by
      unfold kept
      rw [List.filter_cons_of_pos (by decide), List.filter_cons_of_pos (by decide)]
    have hskip : dashRuns true ('_' :: w) = dashRuns true w := by
      rw [dashRuns]
      rfl
    rw [hscore, hwhole, hskip, hw.dashRuns_eq, hw.trimEndBy_eq]
  · rw [hwhole, hw.dashRuns_eq, hw.trimEndBy_eq]

end DocPages.Heading

-- The shape of an anchor made from a text: words with single dashes between them,
-- and an underscore in front of a digit that would stand first. Each letter of the
-- words has a lower case that may stand where it stood, so the shape is kept to
-- the end; and a text in lower case that has the shape is its own anchor.
import DocPages.Proofs.Heading.Words

namespace DocPages.Heading

variable {c d : Char} {cs w piece : List Char} {pieces : List (List Char)}

/-! ## The shape -/

/-- A text without white space and control characters, and of separators with no others than single
dashes inside it and an underscore in front of a digit at its start. -/
structure Shape (cs : List Char) : Prop where
  ne_nil : cs ≠ []
  first : cs.head? ≠ some '-'
  last : cs.getLast? ≠ some '-'
  single : ¬ ['-', '-'] <:+: cs
  chars : ∀ c ∈ cs, Text.isBlank c = false ∧ isControl c = false ∧
    (c ∈ separators → c = '-' ∨ c = '_')
  score : ∀ front back, cs = front ++ '_' :: back →
    front = [] ∧ ∃ c ∈ back.head?, Text.isDecimalDigit c = true
  digit : ∀ c ∈ cs.head?, Text.isDecimalDigit c = false

theorem isSeparator_eq_false_iff :
    isSeparator c = false ↔ Text.isBlank c = false ∧ c ∉ separators := by
  rw [isSeparator, Bool.or_eq_false_iff, List.contains_eq_mem, decide_eq_false_iff_not]

theorem startsWithDigit_iff : startsWithDigit cs = true ↔
    ∃ c ∈ cs.head?, Text.isDecimalDigit c = true := by
  unfold startsWithDigit
  rw [Option.any_eq_true]
  rfl

theorem Worded.plain (hw : Worded w) (hc : c ∈ w) : Text.isBlank c = false ∧ isControl c = false ∧
    (c ∈ separators → c = '-') := by
  rcases hw.mem hc with rfl | hword
  · exact ⟨by decide, by decide, fun _ => rfl⟩
  · obtain ⟨hsep, hcontrol⟩ := isWordChar_iff.mp hword
    obtain ⟨hblank, hnot⟩ := isSeparator_eq_false_iff.mp hsep
    exact ⟨hblank, hcontrol, fun h => absurd h hnot⟩

theorem Worded.not_mem_score (hw : Worded w) : '_' ∉ w := fun h =>
  absurd ((hw.plain h).2.2 (by decide)) (by decide)

/-- Words with their first digit guarded have the shape. -/
theorem Worded.shape (hw : Worded w) : Shape (guardDigit w) := by
  rw [guardDigit_eq]
  split
  · rename_i hdigit
    refine ⟨List.cons_ne_nil _ _, by simp, ?_, ?_, ?_, ?_, ?_⟩
    · rw [List.getLast?_cons_of_ne_nil hw.ne_nil]
      exact hw.getLast?_ne_dash
    · rw [List.infix_cons_iff]
      rintro (h | h)
      · exact absurd (List.cons_prefix_cons.mp h).1 (by decide)
      · exact hw.not_double h
    · refine List.forall_mem_cons.mpr ⟨by decide, fun c hc => ?_⟩
      obtain ⟨hblank, hcontrol, hsep⟩ := hw.plain hc
      exact ⟨hblank, hcontrol, fun h => .inl (hsep h)⟩
    · intro front back h
      cases front with
      | nil =>
        obtain rfl := (List.cons.inj h).2
        exact ⟨rfl, startsWithDigit_iff.mp hdigit⟩
      | cons d front =>
        -- An underscore further on would be in the words.
        refine absurd ?_ hw.not_mem_score
        rw [(List.cons.inj h).2]
        simp
    · intro c hc
      obtain rfl := Option.some.inj hc
      decide
  · rename_i hdigit
    refine ⟨hw.ne_nil, hw.head?_ne_dash, hw.getLast?_ne_dash, hw.not_double, ?_, ?_, ?_⟩
    · intro c hc
      obtain ⟨hblank, hcontrol, hsep⟩ := hw.plain hc
      exact ⟨hblank, hcontrol, fun h => .inl (hsep h)⟩
    · rintro front back rfl
      exact absurd (by simp) hw.not_mem_score
    · intro c hc
      exact Bool.eq_false_iff.mpr fun h => hdigit (startsWithDigit_iff.mpr ⟨c, hc, h⟩)

/-- What has single dashes inside and nothing else between its words is made of words. -/
theorem worded_of_single {cs : List Char} (hne : cs ≠ []) (hfirst : cs.head? ≠ some '-')
    (hlast : cs.getLast? ≠ some '-') (hsingle : ¬ ['-', '-'] <:+: cs)
    (hchars : ∀ c ∈ cs, c = '-' ∨ isWordChar c = true) : Worded cs := by
  match cs with
  | [] => exact absurd rfl hne
  | [c] =>
    refine .single ((hchars c List.mem_cons_self).resolve_left ?_)
    rintro rfl
    exact hfirst rfl
  | c :: d :: rest =>
    obtain ⟨hc, hd, hrest⟩ : _ ∧ _ ∧ ∀ c ∈ rest, c = '-' ∨ isWordChar c = true := by
      simpa only [List.forall_mem_cons] using hchars
    have hc : isWordChar c = true := hc.resolve_left (by rintro rfl; exact hfirst rfl)
    rw [List.getLast?_cons_cons] at hlast
    have hsingle' : ¬ ['-', '-'] <:+: d :: rest := fun h =>
      hsingle (h.trans (List.suffix_cons c _).isInfix)
    by_cases hdash : d = '-'
    · subst hdash
      have hne' : rest ≠ [] := by
        rintro rfl
        exact hlast rfl
      refine .dash hc (worded_of_single hne' ?_ ?_ ?_ hrest)
      · intro h
        obtain ⟨more, rfl⟩ := List.head?_eq_some_iff.mp h
        exact hsingle' (List.prefix_append _ _).isInfix
      · rwa [List.getLast?_cons_of_ne_nil hne'] at hlast
      · exact fun h => hsingle' (h.trans (List.suffix_cons _ _).isInfix)
    · refine .cons hc (worded_of_single (List.cons_ne_nil _ _) ?_ hlast hsingle' ?_)
      · exact fun h => hdash (Option.some.inj h)
      · exact List.forall_mem_cons.mpr ⟨hd, hrest⟩

theorem Shape.isWordChar (h : Shape cs) (hc : c ∈ cs) (hscore : c ≠ '_') :
    c = '-' ∨ isWordChar c = true := by
  obtain ⟨hblank, hcontrol, hsep⟩ := h.chars c hc
  by_cases hmem : c ∈ separators
  · exact .inl ((hsep hmem).resolve_right hscore)
  · exact .inr (isWordChar_iff.mpr ⟨isSeparator_eq_false_iff.mpr ⟨hblank, hmem⟩, hcontrol⟩)

/-- Behind an underscore stand words that begin with a digit. -/
theorem Shape.behind_score {back : List Char} (h : Shape ('_' :: back)) :
    Worded back ∧ startsWithDigit back = true := by
  obtain ⟨-, c, hc, hdec⟩ := h.score [] back rfl
  have hnot : '_' ∉ back := by
    intro hmem
    obtain ⟨front, rest, rfl⟩ := List.append_of_mem hmem
    exact absurd (h.score ('_' :: front) rest rfl).1 (List.cons_ne_nil _ _)
  have hne : back ≠ [] := by
    rintro rfl
    cases hc
  refine ⟨worded_of_single hne ?_ ?_ ?_ fun d hd => ?_, startsWithDigit_iff.mpr ⟨c, hc, hdec⟩⟩
  · intro hdash
    obtain rfl := Option.some.inj (hdash.symm.trans hc)
    exact absurd hdec (by decide)
  · have hlast := h.last
    rwa [List.getLast?_cons_of_ne_nil hne] at hlast
  · exact fun hin => h.single (hin.trans (List.suffix_cons _ _).isInfix)
  · exact h.isWordChar (List.mem_cons_of_mem _ hd) fun heq => hnot (heq ▸ hd)

/-- The shape is that of words with their first digit guarded. -/
theorem shape_iff : Shape cs ↔ ∃ w, Worded w ∧ cs = guardDigit w := by
  constructor
  · intro h
    by_cases hscore : '_' ∈ cs
    · obtain ⟨front, back, rfl⟩ := List.append_of_mem hscore
      obtain ⟨rfl, -⟩ := h.score front back rfl
      obtain ⟨hw, hdigit⟩ := h.behind_score
      exact ⟨back, hw, by rw [guardDigit_eq, if_pos hdigit, List.nil_append]⟩
    · refine ⟨cs, worded_of_single h.ne_nil h.first h.last h.single fun c hc => ?_, ?_⟩
      · exact h.isWordChar hc fun heq => hscore (heq ▸ hc)
      · rw [guardDigit_eq, if_neg]
        intro hdigit
        obtain ⟨c, hc, hdec⟩ := startsWithDigit_iff.mp hdigit
        rw [h.digit c hc] at hdec
        cases hdec
  · rintro ⟨w, hw, rfl⟩
    exact hw.shape

/-! ## Lower case -/

/-- What may be written for a character of an anchor without harm to the shape. -/
structure Rewrites (c : Char) (piece : List Char) : Prop where
  ne_nil : piece ≠ []
  dash : c = '-' → piece = ['-']
  word : isWordChar c = true → ∀ d ∈ piece, isWordChar d = true
  digit : ∀ d ∈ piece, Text.isDecimalDigit d = Text.isDecimalDigit c

/-- Words stay words when each character is written anew. -/
theorem Worded.flatten (hw : Worded w) (h : List.Forall₂ Rewrites w pieces) :
    Worded pieces.flatten := by
  induction hw generalizing pieces with
  | single hc =>
    cases h with
    | cons hpiece hnil =>
      cases hnil
      exact Behind.nothing.worded_append (hpiece.word hc) hpiece.ne_nil
  | cons hc _ ih =>
    cases h with
    | cons hpiece hrest =>
      exact (Behind.word (ih hrest)).worded_append (hpiece.word hc) hpiece.ne_nil
  | dash hc _ ih =>
    cases h with
    | cons hpiece hmore =>
      cases hmore with
      | cons hdash hrest =>
        rw [hdash.dash rfl]
        exact (Behind.dash (ih hrest)).worded_append (hpiece.word hc) hpiece.ne_nil

theorem startsWithDigit_flatten (h : List.Forall₂ Rewrites w pieces) :
    startsWithDigit pieces.flatten = startsWithDigit w := by
  cases h with
  | nil => rfl
  | cons hpiece _ =>
    obtain ⟨d, more, rfl⟩ := List.exists_cons_of_ne_nil hpiece.ne_nil
    exact hpiece.digit d List.mem_cons_self

/-- The range of the control characters. -/
def controlRanges : List (Nat × Nat) := [(0, 0x1F)]

theorem isControl_eq (c : Char) : isControl c = Text.inRanges controlRanges c := by
  rw [Bool.eq_iff_iff, Text.inRanges_iff]
  simp only [isControl, controlRanges, decide_eq_true_eq, List.mem_singleton, exists_eq_left]
  omega

theorem isWordChar_lowerChar (hc : isWordChar c = true) (hd : d ∈ Text.lowerChar c) :
    isWordChar d = true := by
  obtain ⟨hsep, hcontrol⟩ := isWordChar_iff.mp hc
  rw [isControl_eq] at hcontrol
  rw [isWordChar_iff, isControl_eq]
  exact ⟨isSeparator_lowerChar hsep hd,
    Text.inRanges_lowerChar (by decide +kernel) (by decide) hcontrol hd⟩

theorem isDecimalDigit_lowerChar (hd : d ∈ Text.lowerChar c) :
    Text.isDecimalDigit d = Text.isDecimalDigit c := by
  cases hc : Text.isDecimalDigit c with
  | false => exact Text.inRanges_lowerChar (by decide +kernel) (by decide +kernel) hc hd
  | true =>
    have hdot : c ≠ Text.dottedCapital := by
      rintro rfl
      exact absurd hc (by decide +kernel)
    rw [Text.lowerChar_of_ne hdot, List.mem_singleton,
      Text.shiftCase_of_inRanges (by decide +kernel) hc] at hd
    rw [hd, hc]

theorem Rewrites.of_all (hne : piece ≠ []) (hdash : c ≠ '-')
    (hall : piece.all (fun d =>
      isWordChar d && Text.isDecimalDigit d == Text.isDecimalDigit c) = true) :
    Rewrites c piece := by
  simp only [List.all_eq_true, Bool.and_eq_true, beq_iff_eq] at hall
  exact ⟨hne, fun h => absurd h hdash, fun _ d hd => (hall d hd).1, fun d hd => (hall d hd).2⟩

theorem rewrites_of_lowerForm (h : Text.LowerForm c piece) : Rewrites c piece := by
  cases h with
  | final => exact .of_all (by decide) (by decide) (by decide +kernel)
  | plain => exact .of_all (by decide) (by decide) (by decide +kernel)
  | letter hc =>
    refine ⟨Text.lowerChar_ne_nil c, ?_, fun hword d => isWordChar_lowerChar hword,
      fun d => isDecimalDigit_lowerChar⟩
    rintro rfl
    decide +kernel

/-- Guarded words in lower case are the lower case of the words, guarded. -/
theorem lowerCase_guardDigit (w : List Char) : ∃ pieces,
    List.Forall₂ Text.LowerForm w pieces ∧
      Text.lowerCase (guardDigit w) = guardDigit pieces.flatten := by
  have hguard : ∀ {pieces}, List.Forall₂ Text.LowerForm w pieces →
      startsWithDigit pieces.flatten = startsWithDigit w := fun h =>
    startsWithDigit_flatten (h.imp fun _ _ => rewrites_of_lowerForm)
  rw [guardDigit_eq]
  split
  · rename_i hdigit
    obtain ⟨pieces, hpieces, hlower⟩ := Text.lowerAfter_eq_flatten ['_'] w
    refine ⟨pieces, hpieces, ?_⟩
    have hscore : Text.lowerCase ('_' :: w) = '_' :: Text.lowerAfter ['_'] w := by
      have hchar : Text.lowerChar '_' = ['_'] := by decide +kernel
      rw [Text.lowerCase, Text.lowerAfter, if_neg (by decide), hchar]
      rfl
    rw [hscore, hlower, guardDigit_eq, hguard hpieces, if_pos hdigit]
  · rename_i hdigit
    obtain ⟨pieces, hpieces, hlower⟩ := Text.lowerAfter_eq_flatten [] w
    refine ⟨pieces, hpieces, ?_⟩
    rw [Text.lowerCase, hlower, guardDigit_eq, hguard hpieces, if_neg hdigit]

/-! ## Anchors -/

/-- An anchor is the lower case of words, guarded. The words hold no mark, and a dotted capital only
if the text does. -/
theorem exists_words (cs : List Char) : ∃ w, Worded w ∧ (∀ c ∈ w, isCombining c = false) ∧
    (Text.dottedCapital ∈ w ↔ Text.dottedCapital ∈ cs) ∧
      slugChars cs = Text.lowerCase (guardDigit w) := by
  have hdotted : Text.dottedCapital ∈ words cs ↔ Text.dottedCapital ∈ cs :=
    mem_words_iff (by decide +kernel) (by decide +kernel)
  rcases hwords : words cs with _ | ⟨c, rest⟩
  · have hfallback : Worded fallback := by
      rw [← List.append_nil fallback]
      exact Behind.nothing.worded_append (List.all_eq_true.mp (by decide +kernel)) (by decide)
    have hplain : fallback.any isCombining = false := by decide +kernel
    rw [hwords] at hdotted
    have hnone : Text.dottedCapital ∉ cs := fun h => List.not_mem_nil (hdotted.mpr h)
    refine ⟨fallback, hfallback, fun d hd => ?_, iff_of_false (by decide) hnone, ?_⟩
    · exact Bool.eq_false_iff.mpr (List.any_eq_false.mp hplain d hd)
    · rw [slugChars, hwords]
      decide +kernel
  · have hw := (worded_words cs).resolve_left (by rw [hwords]; exact List.cons_ne_nil _ _)
    rw [hwords] at hw hdotted
    refine ⟨c :: rest, hw, fun d hd => ?_, hdotted, ?_⟩
    · rw [← hwords] at hd
      exact isCombining_of_mem_words hd
    · rw [slugChars, hwords]

/-- An anchor is made of what stands for the letters of its words, guarded. -/
theorem exists_pieces (cs : List Char) : ∃ w pieces, Worded w ∧
    (∀ c ∈ w, isCombining c = false) ∧ (Text.dottedCapital ∈ w ↔ Text.dottedCapital ∈ cs) ∧
      List.Forall₂ Text.LowerForm w pieces ∧ slugChars cs = guardDigit pieces.flatten := by
  obtain ⟨w, hw, hmarks, hdotted, hslug⟩ := exists_words cs
  obtain ⟨pieces, hpieces, hlower⟩ := lowerCase_guardDigit w
  exact ⟨w, pieces, hw, hmarks, hdotted, hpieces, hslug.trans hlower⟩

theorem shape_slugChars (cs : List Char) : Shape (slugChars cs) := by
  obtain ⟨w, pieces, hw, -, -, hpieces, hslug⟩ := exists_pieces cs
  rw [hslug]
  exact (hw.flatten (hpieces.imp fun _ _ => rewrites_of_lowerForm)).shape

theorem settled_slugChars (h : d ∈ slugChars cs) : Text.Settled d := by
  obtain ⟨w, -, -, -, hslug⟩ := exists_words cs
  rw [hslug] at h
  exact Text.settled_of_mem_lowerCase h

/-- No letter but the dotted capital brings in a mark. -/
theorem isCombining_of_lowerForm (h : Text.LowerForm c piece) (hdot : c ≠ Text.dottedCapital)
    (hc : isCombining c = false) : ∀ d ∈ piece, isCombining d = false := by
  cases h with
  | final => exact List.forall_mem_singleton.mpr (by decide +kernel)
  | plain => exact List.forall_mem_singleton.mpr (by decide +kernel)
  | letter _ =>
    rw [Text.lowerChar_of_ne hdot]
    exact List.forall_mem_singleton.mpr (Text.inRanges_shiftCase (by decide +kernel) hc)

/-- An anchor holds a mark only if its text holds a dotted capital. -/
theorem isCombining_slugChars (hdot : Text.dottedCapital ∉ cs) (h : d ∈ slugChars cs) :
    isCombining d = false := by
  obtain ⟨w, pieces, -, hmarks, hdotted, hpieces, hslug⟩ := exists_pieces cs
  rw [hslug] at h
  rcases mem_guardDigit h with rfl | h
  · decide
  · obtain ⟨piece, hpiece, hd⟩ := List.mem_flatten.mp h
    obtain ⟨c, hc, hform⟩ := Text.exists_mem_of_forall₂ hpieces hpiece
    refine isCombining_of_lowerForm hform ?_ (hmarks c hc) d hd
    rintro rfl
    exact hdot (hdotted.mp hc)

/-- The anchor of a text of the shape, less marks, is its lower case. -/
theorem Shape.slugChars_eq (h : Shape cs) (hmarks : ∀ c ∈ cs, isCombining c = false) :
    slugChars cs = Text.lowerCase cs := by
  obtain ⟨w, hw, rfl⟩ := shape_iff.mp h
  have hwords : words (guardDigit w) = w :=
    words_guardDigit hw fun c hc => hmarks c (subset_guardDigit w hc)
  obtain ⟨c, rest, rfl, -⟩ := hw.exists_cons
  rw [slugChars, hwords]

/-! ## The law -/

/-- An anchor made from a text is not empty. It does not begin or end in a dash, holds no two dashes
in a row, no white space, no control character and no other separator than dashes and underscores;
an underscore stands only at its start and only in front of a digit, and no digit stands at its
start. Texts in lower case with this shape and without marks are their own anchors, and no others
are. -/
theorem an_anchor_is_words_with_single_dashes (text : String) :
    Shape (slugify text).toList ∧
      (slugify text = text ↔ Shape text.toList ∧ (∀ c ∈ text.toList, isCombining c = false) ∧
        Text.lowerCase text.toList = text.toList) := by
  have hslug : (slugify text).toList = slugChars text.toList := String.toList_ofList
  have hshape := shape_slugChars text.toList
  rw [← String.toList_inj, hslug]
  refine ⟨hshape, fun hself => ?_, fun ⟨h, hmarks, hlower⟩ => ?_⟩
  · have hsettled : ∀ c ∈ text.toList, Text.Settled c := by
      rw [← hself]
      exact fun c => settled_slugChars
    have hdot : Text.dottedCapital ∉ text.toList := fun h =>
      absurd (hsettled _ h) (by decide)
    refine ⟨hself ▸ hshape, fun c hc => ?_, Text.lowerCase_of_settled hsettled⟩
    rw [← hself] at hc
    exact isCombining_slugChars hdot hc
  · rw [h.slugChars_eq hmarks, hlower]

end DocPages.Heading

-- Where the marker of demos occurs in the markup of a page whose pairs of
-- braces are broken: where a block of code opens whose language is written as
-- the one of the marker, and nowhere else.
import DocPages.Options.Compiler
import DocPages.Proofs.Page.Blocks
import DocPages.Proofs.Text.Breaks

namespace DocPages.Page

open Markdown (Node)
open TemplateTokens (breakPairs isBrace)

/-! ## The marker -/

theorem usualMarker_toList (language : String) :
    (Options.Compiler.usualMarker language).toList = codeOpening ++ (language.toList ++ ['\x22']) := by
  have hopening : "<pre><code class=\"language-".toList = codeOpening := by decide
  unfold Options.Compiler.usualMarker
  rw [String.toList_append, String.toList_append, hopening, List.append_assoc]
  rfl

theorem codeOpening_plain : TemplateTokens.Plain codeOpening := by decide

theorem breakPairs_code (language rest : List Char) :
    breakPairs (codeOpening ++ (language ++ '\x22' :: rest)) =
      codeOpening ++ (breakPairs language ++ '\x22' :: breakPairs rest) := by
  have hquote : isBrace '\x22' = false := by decide
  have hrest : breakPairs ('\x22' :: rest) = '\x22' :: breakPairs rest :=
    TemplateTokens.breakPairs_cons fun d _ => by rw [hquote, Bool.false_and]
  have hhead : ∀ d ∈ ('\x22' :: rest).head?, isBrace d = false := by
    rintro d ⟨⟩
    exact hquote
  rw [TemplateTokens.breakPairs_append_of_plain codeOpening_plain,
    TemplateTokens.breakPairs_append hhead, hrest]

/-- A language and a quote stand in front of a text that begins with a language and a quote if and
only if the languages are the same. -/
theorem quoted_prefix_iff {a b rest : List Char} (hb : '\x22' ∉ b)
    (ha : '\x22' ∉ a ∨ a.length ≤ b.length) :
    a ++ ['\x22'] <+: b ++ '\x22' :: rest ↔ b = a := by
  constructor
  · intro h
    rcases List.prefix_or_prefix_of_prefix h (List.prefix_append _ _) with hshort | hlong
    · exact absurd (hshort.subset (List.mem_append_right a List.mem_cons_self)) hb
    rcases List.prefix_concat_iff.mp hlong with rfl | ⟨more, rfl⟩
    · exact absurd (List.mem_append_right a List.mem_cons_self) hb
    cases more with
    | nil => exact (List.append_nil b).symm
    | cons c more =>
      rw [List.append_assoc, List.prefix_append_right_inj, List.cons_append,
        List.cons_prefix_cons] at h
      obtain ⟨rfl, -⟩ := h
      rcases ha with ha | ha
      · exact absurd (List.mem_append_right b List.mem_cons_self) ha
      · rw [List.length_append, List.length_cons] at ha
        omega
  · rintro rfl
    exact (List.prefix_append_right_inj b).mpr (List.prefix_append ['\x22'] rest)

theorem quote_not_mem_breakPairs {cs : List Char} (h : '\x22' ∉ cs) : '\x22' ∉ breakPairs cs := by
  intro hmem
  rcases TemplateTokens.mem_breakPairs hmem with hcs | hmark
  · exact h hcs
  · revert hmark
    decide

/-- The marker stands where a block opens if and only if the languages are written in the same
way. -/
theorem usualMarker_prefix_iff {language : String} {named : List Char} (hnamed : '\x22' ∉ named)
    (hlanguage : '\x22' ∉ language.toList ∨ language.toList.length ≤ named.length)
    (rest : List Char) :
    (Options.Compiler.usualMarker language).toList <+:
        breakPairs (codeOpening ++ (named ++ '\x22' :: rest)) ↔
      breakPairs named = language.toList := by
  rw [usualMarker_toList, breakPairs_code, List.prefix_append_right_inj]
  refine quoted_prefix_iff (quote_not_mem_breakPairs hnamed) (hlanguage.imp_right fun h => ?_)
  exact h.trans (TemplateTokens.length_le_breakPairs named)

/-! ## Pieces that the marker marks -/

/-- The language that a piece names is written as that of the marker. -/
def Piece.Marks (list : List Block) (language : String) (p : Piece) : Prop :=
  ∃ named ∈ p.language? list, breakPairs named = language.toList

instance (list : List Block) (language : String) (p : Piece) : Decidable (p.Marks list language) :=
  decidable_of_iff ((p.language? list).any fun named => breakPairs named == language.toList)
    (by simp [Piece.Marks, Option.any_eq_true])

/-- The language of a block is written as that of the marker. -/
def Block.Marks (language : String) (b : Block) : Prop :=
  ∃ lang ∈ b.code.lang, breakPairs (Markdown.Url.encode lang.toList) = language.toList

instance (language : String) (b : Block) : Decidable (b.Marks language) :=
  decidable_of_iff
    (b.code.lang.any fun lang =>
      breakPairs (Markdown.Url.encode lang.toList) == language.toList)
    (by simp [Block.Marks, Option.any_eq_true])

variable {list : List Block} {headers : List Header} {pieces : List Piece} {language : String}

theorem marks_block_iff {number : Nat} {content : List Char} :
    (Piece.block number content).Marks list language ↔
      ∃ b, list[number]? = some b ∧ b.Marks language := by
  constructor
  · rintro ⟨named, hnamed, hwritten⟩
    obtain ⟨lang, hlang, rfl⟩ := Option.map_eq_some_iff.mp hnamed
    obtain ⟨b, hb, hlang⟩ := Option.bind_eq_some_iff.mp hlang
    exact ⟨b, hb, lang, hlang, hwritten⟩
  · rintro ⟨b, hb, lang, hlang, hwritten⟩
    have hnamed : (list[number]?.bind fun b => b.code.lang) = some lang :=
      Option.bind_eq_some_iff.mpr ⟨b, hb, hlang⟩
    exact ⟨_, Option.map_eq_some_iff.mpr ⟨lang, hnamed, rfl⟩, hwritten⟩

/-- The markup of code in a block of its own, behind its opening and in front of other parts. -/
theorem anchoredMarkup_codeParts (ids : List String) (named : Option (List Char))
    (content : List Char) (rest : List Part) :
    anchoredMarkup ids (codeParts named content ++ rest) =
      preTag ++ ((codeTag named).chars ++ (content ++ ("</code></pre>".toList ++
        anchoredMarkup ids rest))) := by
  have hother : ∀ (bit : Markup.Bit) (parts : List Part),
      anchoredMarkup ids (.other bit :: parts) = bit.chars ++ anchoredMarkup ids parts := by
    intro bit parts
    rw [anchoredMarkup_cons]
    cases ids <;> rfl
  have hend : "</code></pre>".toList =
      (Markup.Bit.stop "code".toList).chars ++ (Markup.Bit.stop "pre".toList).chars := by decide
  have hpre : preTag = (Markup.Bit.start ⟨"pre".toList, [], false⟩).chars := by decide
  unfold codeParts startPart stopPart
  simp only [List.cons_append, List.nil_append, List.map_nil, hother]
  rw [hend, hpre, List.append_assoc]
  rfl

/-- A piece that names a language opens as a block with that language. -/
theorem anchoredMarkup_of_language {p : Piece} {named : List Char}
    (h : p.language? list = some named) (ids : List String) (after : List Piece) :
    ∃ rest, anchoredMarkup ids (partsOf list (p :: after)) =
      codeOpening ++ (named ++ '\x22' :: rest) := by
  obtain ⟨content, hparts⟩ : ∃ content, p.parts list = codeParts (some named) content := by
    cases p with
    | block number content => exact ⟨content, by rw [← h]; rfl⟩
    | formula content => exact ⟨content, by rw [← h]; rfl⟩
    | other part => cases h
  have hcons : partsOf list (p :: after) =
      codeParts (some named) content ++ partsOf list after := by
    rw [← hparts]
    rfl
  have htag : (codeTag (some named)).chars =
      '<' :: "code class=\"language-".toList ++ named ++ ['\x22', '>'] := by
    simp [codeTag, Markup.StartTag.chars]
  refine ⟨'>' :: (content ++ ("</code></pre>".toList ++ anchoredMarkup ids (partsOf list after))),
    ?_⟩
  rw [hcons, anchoredMarkup_codeParts, htag]
  simp [codeOpening]

theorem not_codeOpening_of_no_language (ids : List String) (content : List Char)
    (rest : List Part) :
    ¬ codeOpening <+: anchoredMarkup ids (codeParts none content ++ rest) := by
  have htag : (codeTag none).chars = "<code>".toList := by decide
  rw [anchoredMarkup_codeParts, htag, codeOpening, List.prefix_append_right_inj]
  intro h
  have hshort : "<code>".toList <+: "<code>".toList ++ (content ++ ("</code></pre>".toList ++
      anchoredMarkup ids rest)) := List.prefix_append _ _
  rcases List.prefix_or_prefix_of_prefix h hshort with h | h
  · revert h
    decide
  · revert h
    decide

/-! ## Markers in front of a piece -/

/-- Where the marker stands in the markup of pieces whose pairs of braces are broken, a piece opens
that it marks. -/
theorem exists_of_usualMarker (hheaders : ∀ p ∈ partsOf list pieces, p.Sound headers)
    (hsound : ∀ p ∈ pieces, p.Sound) (hlanguage : '\x22' ∉ language.toList) {ids : List String}
    {i : Nat} (h : (Options.Compiler.usualMarker language).toList <+:
      (breakPairs (anchoredMarkup ids (partsOf list pieces))).drop i) :
    ∃ before p after, pieces = before ++ p :: after ∧ p.Marks list language ∧
      (breakPairs (anchoredMarkup ids (partsOf list before))).length = i := by
  have hopening : codeOpening <+:
      (breakPairs (anchoredMarkup ids (partsOf list pieces))).drop i := by
    rw [usualMarker_toList] at h
    exact (List.prefix_append _ _).trans h
  obtain ⟨inside, hcons⟩ := codeOpening_eq_cons
  have hangle := hopening
  rw [hcons] at hangle
  obtain ⟨a, b, hsplit, ha⟩ := TemplateTokens.exists_of_angle (by decide) hangle
  have hhead : ∀ d ∈ ('<' :: b).head?, isBrace d = false := by
    rintro d ⟨⟩
    decide
  have hdrop : (breakPairs (anchoredMarkup ids (partsOf list pieces))).drop i =
      breakPairs ('<' :: b) := by
    rw [hsplit, TemplateTokens.breakPairs_append hhead, ← ha, List.drop_left]
  rw [hdrop] at h hopening
  rw [TemplateTokens.prefix_breakPairs_iff codeOpening_plain] at hopening
  obtain ⟨front, part, back, hparts, hpre, rfl, hb⟩ :=
    exists_of_codeOpening hheaders (angle_not_mem_partsOf hsound) hsplit hopening
  obtain ⟨before, p, after, content, rfl, rfl, hcode⟩ := exists_of_preTag hsound hparts hpre
  refine ⟨before, p, after, rfl, ?_, ha⟩
  have hback : part :: back = partsOf list (p :: after) := by
    rw [partsOf_append] at hparts
    exact (List.append_cancel_left hparts).symm
  rw [hback] at hb
  cases hnamed : p.language? list with
  | none =>
    have hnone := not_codeOpening_of_no_language
      (behindAll ids (partsOf list before)) content (partsOf list after)
    have hcons : partsOf list (p :: after) = codeParts none content ++ partsOf list after := by
      rw [← hnamed, ← hcode]
      rfl
    rw [hb, hcons] at hopening
    exact absurd hopening hnone
  | some named =>
    obtain ⟨rest, hrest⟩ := anchoredMarkup_of_language hnamed
      (behindAll ids (partsOf list before)) after
    have hquote : '\x22' ∉ named := fun hmem => (mem_language? hnamed hmem).2 rfl
    rw [hb, hrest, usualMarker_prefix_iff hquote (Or.inl hlanguage)] at h
    exact ⟨named, hnamed, h⟩

/-- The markup of pieces, up to a piece that names a language and from there on. -/
theorem anchoredMarkup_split {p : Piece} {named : List Char} (h : p.language? list = some named)
    (ids : List String) (before after : List Piece) :
    ∃ rest, anchoredMarkup ids (partsOf list (before ++ p :: after)) =
      anchoredMarkup ids (partsOf list before) ++ (codeOpening ++ (named ++ '\x22' :: rest)) := by
  obtain ⟨rest, hrest⟩ := anchoredMarkup_of_language h (behindAll ids (partsOf list before)) after
  exact ⟨rest, by rw [partsOf_append, anchoredMarkup_append, hrest]⟩

theorem codeOpening_head (back : List Char) :
    ∀ d ∈ (codeOpening ++ back).head?, isBrace d = false := by
  rintro d ⟨⟩
  decide

/-- A marker stands in front of a piece in markup whose pairs of braces are broken if and only if it
marks a piece in front of it. -/
theorem usualMarker_before_iff (hheaders : ∀ p ∈ partsOf list pieces, p.Sound headers)
    (hsound : ∀ p ∈ pieces, p.Sound) (hlanguage : '\x22' ∉ language.toList) (ids : List String)
    {front back : List Piece} (hpieces : pieces = front ++ back) :
    (∃ i < (breakPairs (anchoredMarkup ids (partsOf list front))).length,
      (Options.Compiler.usualMarker language).toList <+:
        (breakPairs (anchoredMarkup ids (partsOf list pieces))).drop i) ↔
      ∃ p ∈ front, p.Marks list language := by
  constructor
  · rintro ⟨i, hi, h⟩
    obtain ⟨before, p, after, hsplit, hmarks, rfl⟩ :=
      exists_of_usualMarker hheaders hsound hlanguage h
    refine ⟨p, ?_, hmarks⟩
    rw [hpieces] at hsplit
    rcases List.append_eq_append_iff.mp hsplit with ⟨more, rfl, -⟩ | ⟨more, rfl, hback⟩
    · -- Such a piece would begin behind the pieces in front.
      have hle := TemplateTokens.length_breakPairs_le_append
        (anchoredMarkup ids (partsOf list front))
        (anchoredMarkup (behindAll ids (partsOf list front)) (partsOf list more))
      rw [partsOf_append, anchoredMarkup_append] at hi
      omega
    · cases more with
      | nil =>
        rw [List.append_nil] at hi
        omega
      | cons q more =>
        obtain ⟨rfl, -⟩ := List.cons.inj hback
        exact List.mem_append_right before List.mem_cons_self
  · rintro ⟨p, hp, named, hnamed, hwritten⟩
    obtain ⟨before, after, rfl⟩ := List.append_of_mem hp
    have hquote : '\x22' ∉ named := fun hmem => (mem_language? hnamed hmem).2 rfl
    obtain ⟨inside, hinside⟩ := anchoredMarkup_split hnamed ids before after
    obtain ⟨rest, hrest⟩ := anchoredMarkup_split hnamed ids before (after ++ back)
    rw [hpieces, List.append_assoc, List.cons_append, hrest, hinside,
      TemplateTokens.breakPairs_append (codeOpening_head _),
      TemplateTokens.breakPairs_append (codeOpening_head _)]
    refine ⟨(breakPairs (anchoredMarkup ids (partsOf list before))).length, ?_, ?_⟩
    · have hlength : 0 < codeOpening.length := by decide
      rw [List.length_append, breakPairs_code, List.length_append]
      omega
    · rw [List.drop_left, usualMarker_prefix_iff hquote (Or.inl hlanguage)]
      exact hwritten

end DocPages.Page

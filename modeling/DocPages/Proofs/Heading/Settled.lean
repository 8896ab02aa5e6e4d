-- Anchors of anchors. Marks are taken out of a text before it is put into lower
-- case, and one letter, the dotted capital, brings a mark in again. So an anchor
-- is its own anchor but for that mark, which the second pass takes out.
import DocPages.Proofs.Heading.Shape

namespace DocPages.Heading

variable {c : Char} {cs w piece : List Char} {pieces : List (List Char)}

/-- A text less its marks. -/
def unmarked (cs : List Char) : List Char := cs.filter fun c => !isCombining c

theorem mem_unmarked_iff : c ∈ unmarked cs ↔ c ∈ cs ∧ isCombining c = false := by
  simp [unmarked]

theorem unmarked_eq_self_iff : unmarked cs = cs ↔ ∀ c ∈ cs, isCombining c = false := by
  simp [unmarked]

theorem unmarked_unmarked (cs : List Char) : unmarked (unmarked cs) = unmarked cs :=
  unmarked_eq_self_iff.mpr fun _ h => (mem_unmarked_iff.mp h).2

/-- Marks make no difference to an anchor. -/
theorem slugChars_unmarked (cs : List Char) : slugChars (unmarked cs) = slugChars cs := by
  have hwords : words (unmarked cs) = words cs := by
    rw [words_eq, words_eq]
    unfold kept
    rw [← unmarked, ← unmarked, unmarked_unmarked]
  rw [slugChars, slugChars, hwords]

/-- Without its marks the lower case of a letter may still stand where the letter stood. -/
theorem rewrites_unmarked (h : Text.LowerForm c piece) (hc : isCombining c = false) :
    Rewrites c (unmarked piece) := by
  by_cases hdot : c = Text.dottedCapital
  · subst hdot
    rw [h.eq_lowerChar (by decide), Text.lowerChar_dottedCapital]
    exact .of_all (by decide) (by decide) (by decide +kernel)
  · rw [unmarked_eq_self_iff.mpr (isCombining_of_lowerForm h hdot hc)]
    exact rewrites_of_lowerForm h

/-- An anchor keeps its shape without its marks. -/
theorem shape_unmarked_slugChars (cs : List Char) : Shape (unmarked (slugChars cs)) := by
  obtain ⟨w, pieces, hw, hmarks, -, hpieces, hslug⟩ := exists_pieces cs
  have hrewrites : List.Forall₂ Rewrites w pieces :=
    hpieces.imp fun _ _ => rewrites_of_lowerForm
  have hunmarked : List.Forall₂ Rewrites w (pieces.map unmarked) :=
    List.forall₂_map_right_iff.mpr <|
      ((List.forall₂_and_left _ _).mpr ⟨hmarks, hpieces⟩).imp fun _ _ h => rewrites_unmarked h.2 h.1
  have hflat : unmarked pieces.flatten = (pieces.map unmarked).flatten := List.filter_flatten
  have hguard :
      unmarked (guardDigit pieces.flatten) = guardDigit (pieces.map unmarked).flatten := by
    rw [guardDigit_eq, guardDigit_eq, startsWithDigit_flatten hrewrites,
      startsWithDigit_flatten hunmarked, ← hflat]
    split
    · exact List.filter_cons_of_pos (by decide)
    · rfl
  rw [hslug, hguard]
  exact (hw.flatten hunmarked).shape

/-- The anchor of an anchor is the anchor less its marks. -/
theorem slugChars_slugChars (cs : List Char) :
    slugChars (slugChars cs) = unmarked (slugChars cs) := by
  have hmarks : ∀ c ∈ unmarked (slugChars cs), isCombining c = false := fun _ h =>
    (mem_unmarked_iff.mp h).2
  rw [← slugChars_unmarked, (shape_unmarked_slugChars cs).slugChars_eq hmarks]
  exact Text.lowerCase_of_settled fun _ h => settled_slugChars (mem_unmarked_iff.mp h).1

/-- An anchor is without marks if and only if its text is without dotted capitals. -/
theorem isCombining_slugChars_iff :
    (∀ c ∈ slugChars cs, isCombining c = false) ↔ Text.dottedCapital ∉ cs := by
  refine ⟨fun h hdot => ?_, fun hdot _ => isCombining_slugChars hdot⟩
  obtain ⟨w, pieces, -, -, hdotted, hpieces, hslug⟩ := exists_pieces cs
  obtain ⟨piece, hpiece, hform⟩ := Text.exists_mem_of_forall₂ hpieces.flip (hdotted.mpr hdot)
  have hmark : Char.ofNat 0x307 ∈ piece := by
    rw [Text.LowerForm.eq_lowerChar hform (by decide), Text.lowerChar_dottedCapital]
    decide
  have hflat : Char.ofNat 0x307 ∈ pieces.flatten := List.mem_flatten.mpr ⟨piece, hpiece, hmark⟩
  have hslugged : Char.ofNat 0x307 ∈ slugChars cs := hslug ▸ subset_guardDigit _ hflat
  exact absurd (h _ hslugged) (by decide)

/-! ## The law -/

/-- An anchor is without marks if and only if the dotted capital does not occur in its text, and
then and only then it is its own anchor. The anchor of an anchor is in any case the anchor less its
marks, and that one is its own anchor. -/
theorem an_anchor_is_its_own_iff_without_dotted_capitals (text : String) :
    ((∀ c ∈ (slugify text).toList, isCombining c = false) ↔ Text.dottedCapital ∉ text.toList) ∧
      (slugify (slugify text) = slugify text ↔ Text.dottedCapital ∉ text.toList) ∧
      slugify (slugify text) = String.ofList (unmarked (slugify text).toList) ∧
      slugify (slugify (slugify text)) = slugify (slugify text) := by
  have hslug : ∀ text : String, (slugify text).toList = slugChars text.toList := fun _ =>
    String.toList_ofList
  have htwice : ∀ text : String, slugify (slugify text) =
      String.ofList (unmarked (slugify text).toList) := by
    intro text
    rw [hslug, ← slugChars_slugChars, ← hslug, ← hslug, String.ofList_toList]
  refine ⟨?_, ?_, htwice text, ?_⟩
  · rw [hslug]
    exact isCombining_slugChars_iff
  · rw [htwice, ← isCombining_slugChars_iff, ← hslug, ← unmarked_eq_self_iff, ← String.toList_inj,
      String.toList_ofList]
  · rw [htwice (slugify text), htwice text, String.toList_ofList, unmarked_unmarked]

/-- The mark that the dotted capital brings in stays in the anchor of the letter, and is missing in
the anchor of that anchor. -/
theorem dottedCapital_leaves_its_mark :
    (slugify "\u0130").toList = ['i', Char.ofNat 0x307] ∧ isCombining (Char.ofNat 0x307) = true ∧
      slugify (slugify "\u0130") = "i" ∧ slugify (slugify "\u0130") ≠ slugify "\u0130" := by
  decide +kernel

end DocPages.Heading

-- Links in a row. A link is found by its two pairs of brackets, and each pair
-- must hold at least two characters. A link that holds fewer is not taken for
-- one: it stays in its brackets, and the search goes on behind the first of them.
import DocPages.HeaderText
import DocPages.Proofs.Text.Search

namespace DocPages.HeaderText

/-! ## A pair of brackets -/

theorem span_append {close : Char} {body : List Char} (h : close ∉ body) (back : List Char) :
    (body ++ close :: back).span (· != close) = (body, close :: back) := by
  have hpass : ∀ c ∈ body, (c != close) = true :=
    fun c hc => bne_iff_ne.mpr fun heq => h (heq ▸ hc)
  rw [List.span_eq_takeWhile_dropWhile, List.takeWhile_append_of_pos hpass,
    List.dropWhile_append_of_pos hpass]
  simp

/-- A pair of brackets around at least two characters is read as far as the closing one. -/
theorem bracketed?_of_two {close : Char} {body : List Char} (h : close ∉ body)
    (hline : '\n' ∉ body) (htwo : 2 ≤ body.length) (back : List Char) :
    bracketed? close (body ++ close :: back) = some (body, back) := by
  match body with
  | first :: next :: body =>
    rw [List.mem_cons, not_or] at h hline
    rw [List.cons_append, bracketed?, span_append h.2]
    simp [Ne.symm hline.1]

/-- A pair of brackets around one character is not read. -/
theorem bracketed?_of_one {close : Char} {body : List Char} (hone : body.length = 1)
    (back : List Char) : bracketed? close (body ++ close :: back) = none := by
  obtain ⟨first, rfl⟩ := List.length_eq_one_iff.mp hone
  have hspan : (close :: back).span (· != close) = ([], close :: back) :=
    span_append List.not_mem_nil back
  rw [List.singleton_append, bracketed?, hspan]
  simp

/-! ## Links -/

/-- A link on one line. What it shows is not empty and holds no square brackets, its target is not
empty and holds no closing round one. -/
structure Link where
  shown : List Char
  target : List Char
  shown_filled : shown ≠ []
  target_filled : target ≠ []
  shown_line : '\n' ∉ shown
  target_line : '\n' ∉ target
  shown_opens : '[' ∉ shown
  shown_closes : ']' ∉ shown
  target_closes : ')' ∉ target

namespace Link

/-- The link in its brackets, with a text behind it. -/
def writtenBefore (l : Link) (back : List Char) : List Char :=
  '[' :: (l.shown ++ ']' :: '(' :: (l.target ++ ')' :: back))

/-- The link shows a single character, or its target is one. -/
def Short (l : Link) : Prop := l.shown.length = 1 ∨ l.target.length = 1

instance (l : Link) : Decidable l.Short := inferInstanceAs (Decidable (_ ∨ _))

/-- A link whose two parts have at least two characters each is found. -/
theorem linkAt_written {l : Link} (h : ¬ l.Short) (start : Bool) (back : List Char) :
    linkAt start (l.writtenBefore back) =
      some ⟨l.shown.length + l.target.length + 3, l.shown⟩ := by
  have hshown : 2 ≤ l.shown.length := by
    have := List.length_pos_iff.mpr l.shown_filled
    unfold Short at h
    omega
  have htarget : 2 ≤ l.target.length := by
    have := List.length_pos_iff.mpr l.target_filled
    unfold Short at h
    omega
  simp only [writtenBefore, linkAt, bracketed?_of_two l.shown_closes l.shown_line hshown,
    bracketed?_of_two l.target_closes l.target_line htarget]

/-- A shorter link is not. -/
theorem linkAt_short {l : Link} (h : l.Short) (start : Bool) (back : List Char) :
    linkAt start (l.writtenBefore back) = none := by
  by_cases hshown : l.shown.length = 1
  · simp only [writtenBefore, linkAt, bracketed?_of_one hshown]
  · have htwo : 2 ≤ l.shown.length := by
      have := List.length_pos_iff.mpr l.shown_filled
      omega
    simp only [writtenBefore, linkAt, bracketed?_of_two l.shown_closes l.shown_line htwo,
      bracketed?_of_one (h.resolve_left hshown)]

/-- A link that is found is replaced by what it shows. -/
theorem unwrapLinks_written {l : Link} (h : ¬ l.Short) (back : List Char) :
    unwrapLinks (l.writtenBefore back) = l.shown ++ unwrapLinks back := by
  have hsplit : l.writtenBefore back =
      '[' :: (l.shown ++ ']' :: '(' :: (l.target ++ [')']) ++ back) := by simp [writtenBefore]
  have hat := linkAt_written h true back
  have hlength : l.shown.length + l.target.length + 3 =
      (l.shown ++ ']' :: '(' :: (l.target ++ [')'])).length := by
    simp only [List.length_append, List.length_cons, List.length_nil]
    omega
  rw [hsplit, hlength] at hat
  rw [hsplit]
  exact Text.replaceBy_of_some (fun _ => rfl) hat

end Link

/-- Text without an opening square bracket stays, and the search goes on behind it. -/
theorem unwrapLinks_plain {text : List Char} (h : '[' ∉ text) (back : List Char) :
    unwrapLinks (text ++ back) = text ++ unwrapLinks back := by
  apply Text.replaceBy_keep fun _ => rfl
  intro c rest hrest
  have hc : c ≠ '[' := fun heq => h (heq ▸ hrest.subset List.mem_cons_self)
  unfold linkAt
  split
  · rename_i heq
    exact absurd (List.cons.inj heq).1 hc
  · rfl

theorem unwrapLinks_of_not_mem {text : List Char} (h : '[' ∉ text) : unwrapLinks text = text := by
  have hend : unwrapLinks [] = [] := rfl
  have hkept := unwrapLinks_plain h []
  rwa [hend, List.append_nil] at hkept

/-- A short link stays in its brackets, and the search goes on in its target. -/
theorem Link.unwrapLinks_short {l : Link} (h : l.Short) (back : List Char) :
    unwrapLinks (l.writtenBefore back) =
      '[' :: (l.shown ++ ']' :: '(' :: unwrapLinks (l.target ++ ')' :: back)) := by
  have hplain : '[' ∉ l.shown ++ [']', '('] := by simp [l.shown_opens]
  have hrest := unwrapLinks_plain hplain (l.target ++ ')' :: back)
  rw [List.append_assoc, List.append_assoc] at hrest
  have hat := Link.linkAt_short h true back
  exact (Text.replaceBy_cons (fun _ => rfl) hat).trans (congrArg ('[' :: ·) hrest)

/-! ## Texts and links in a row -/

/-- A text without an opening square bracket, or a link. -/
inductive Piece where
  | plain (text : List Char) (h : '[' ∉ text)
  | link (l : Link)

namespace Piece

def written : Piece → List Char
  | plain text _ => text
  | link l => l.writtenBefore []

/-- What the piece shows. -/
def shown : Piece → List Char
  | plain text _ => text
  | link l => l.shown

/-- What is left of the piece: a short link stays as it is. -/
def left : Piece → List Char
  | plain text _ => text
  | link l => if l.Short then l.writtenBefore [] else l.shown

theorem written_link (l : Link) (back : List Char) :
    (link l).written ++ back = l.writtenBefore back := by simp [written, Link.writtenBefore]

end Piece

section Row

variable {pieces : List Piece}

theorem unwrapLinks_row (h : ∀ l, Piece.link l ∈ pieces → l.Short → '[' ∉ l.target) :
    unwrapLinks (pieces.flatMap Piece.written) = pieces.flatMap Piece.left := by
  induction pieces with
  | nil => rfl
  | cons piece pieces ih =>
    have hrest := ih fun l hl => h l (List.mem_cons_of_mem piece hl)
    rw [List.flatMap_cons, List.flatMap_cons, ← hrest]
    cases piece with
    | plain text hplain => exact unwrapLinks_plain hplain _
    | link l =>
      rw [Piece.written_link, Piece.left]
      split
      · rename_i hshort
        have hplain : '[' ∉ l.target ++ [')'] := by simpa using h l List.mem_cons_self hshort
        have htarget := unwrapLinks_plain hplain (pieces.flatMap Piece.written)
        rw [← List.append_cons] at htarget
        rw [Link.unwrapLinks_short hshort, htarget]
        simp [Link.writtenBefore]
      · rename_i hlong
        exact Link.unwrapLinks_written hlong _

/-- The opening bracket of the first short link is left. -/
theorem open_mem_unwrapLinks {l : Link} (hl : Piece.link l ∈ pieces) (h : l.Short) :
    '[' ∈ unwrapLinks (pieces.flatMap Piece.written) := by
  induction pieces with
  | nil => cases hl
  | cons piece pieces ih =>
    rw [List.flatMap_cons]
    cases piece with
    | plain text hplain =>
      rw [Piece.written, unwrapLinks_plain hplain]
      exact List.mem_append_right _ (ih (by simpa using hl))
    | link first =>
      rw [Piece.written_link]
      by_cases hshort : first.Short
      · rw [Link.unwrapLinks_short hshort]
        exact List.mem_cons_self
      · rw [Link.unwrapLinks_written hshort]
        refine List.mem_append_right _ (ih ?_)
        rcases List.mem_cons.mp hl with heq | hrest
        · cases heq
          exact absurd h hshort
        · exact hrest

theorem open_not_mem_shown (pieces : List Piece) : '[' ∉ pieces.flatMap Piece.shown := by
  rw [List.mem_flatMap]
  rintro ⟨piece, -, hmem⟩
  cases piece with
  | plain text h => exact h hmem
  | link l => exact l.shown_opens hmem

end Row

/-- Texts and links in a row come out as what they show exactly if no link is short. If a target
of a short link holds no opening bracket, from which the search could go over its end, the short
links stay as they are, and nothing else does. -/
theorem links_are_unwrapped_iff_none_is_short (pieces : List Piece) :
    (unwrapLinks (pieces.flatMap Piece.written) = pieces.flatMap Piece.shown ↔
        ∀ l, Piece.link l ∈ pieces → ¬ l.Short) ∧
      ((∀ l, Piece.link l ∈ pieces → l.Short → '[' ∉ l.target) →
        unwrapLinks (pieces.flatMap Piece.written) = pieces.flatMap Piece.left) := by
  refine ⟨⟨?_, ?_⟩, unwrapLinks_row⟩
  · intro heq l hl hshort
    exact open_not_mem_shown pieces (heq ▸ open_mem_unwrapLinks hl hshort)
  · intro hlong
    rw [unwrapLinks_row fun l hl hshort => absurd hshort (hlong l hl)]
    apply List.flatMap_congr
    intro piece hpiece
    cases piece with
    | plain text h => rfl
    | link l => exact if_neg (hlong l hpiece)

/-- A link to a guide. -/
def guideLink : Link where
  shown := "the guide".toList
  target := "./guide.md".toList
  shown_filled := by decide
  target_filled := by decide
  shown_line := by decide
  target_line := by decide
  shown_opens := by decide
  shown_closes := by decide
  target_closes := by decide

/-- A link that shows the name of a language with one letter. -/
def letterLink : Link where
  shown := ['C']
  target := "./c.md".toList
  shown_filled := by decide
  target_filled := by decide
  shown_line := by decide
  target_line := by decide
  shown_opens := by decide
  shown_closes := by decide
  target_closes := by decide

/-- Links and texts in a row, the last link short. -/
def linkedText : List Piece :=
  [.plain "See ".toList (by decide), .link guideLink, .plain " (or) ".toList (by decide),
    .link letterLink]

theorem linkedText_keeps_its_short_link :
    (∀ l, Piece.link l ∈ linkedText → l.Short → '[' ∉ l.target) ∧
      unwrapLinks "See [the guide](./guide.md) (or) [C](./c.md)".toList =
        "See the guide (or) [C](./c.md)".toList ∧
      unwrapLinks "[the guide](./guide.md)".toList = "the guide".toList := by
  have htargets : ∀ l, Piece.link l ∈ linkedText → l.Short → '[' ∉ l.target := by
    intro l hl hshort
    simp only [linkedText, List.mem_cons, List.not_mem_nil, reduceCtorEq, Piece.link.injEq,
      false_or, or_false] at hl
    rcases hl with rfl | rfl <;> decide
  have hlong : ∀ l, Piece.link l ∈ [Piece.link guideLink] → ¬ l.Short := by
    intro l hl
    cases List.mem_singleton.mp hl
    decide
  obtain ⟨-, hrow⟩ := links_are_unwrapped_iff_none_is_short linkedText
  obtain ⟨hiff, -⟩ := links_are_unwrapped_iff_none_is_short [.link guideLink]
  exact ⟨htargets, hrow htargets, hiff.mpr hlong⟩

/-- A link with one letter stays as it is. -/
theorem letterLink_stays_in_its_brackets :
    [Piece.link letterLink].flatMap Piece.written = "[C](./c.md)".toList ∧
      [Piece.link letterLink].flatMap Piece.shown = ['C'] ∧
      unwrapLinks "[C](./c.md)".toList = "[C](./c.md)".toList ∧
      unwrapLinks "[C](./c.md)".toList ≠ ['C'] := by
  decide

end DocPages.HeaderText
